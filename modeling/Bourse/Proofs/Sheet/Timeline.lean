import Bourse.Proofs.Calendar.Timestamp
import Bourse.Proofs.Sheet.Delimited
import Bourse.Proofs.Sheet.Regular
import Bourse.Proofs.Source.Adjoining
import Bourse.Sheet.Market

/-! Corporate actions in the order of time. The dividends and the splits of a symbol are those of its
rows whose timestamps lie in the range, and on a sheet the two are merged: each of them has one row,
a dividend stands before a split of the same time, and neither series changes its order. -/
namespace Bourse

/-- A dividend or a split. -/
inductive CorporateAction where
  | dividend (dividend : Dividend)
  | split (split : Split)

namespace CorporateAction

def timestamp : CorporateAction → Int
  | dividend d => d.timestamp
  | split s => s.timestamp

def dividend? : CorporateAction → Option Dividend
  | dividend d => some d
  | split _ => none

def split? : CorporateAction → Option Split
  | dividend _ => none
  | split s => some s

/-- Whether an action comes before another: earlier, or at the same time unless it is a split and the
other one a dividend. -/
def Precedes (a b : CorporateAction) : Prop :=
  a.timestamp < b.timestamp ∨
    a.timestamp = b.timestamp ∧ (a.split?.isSome = true → b.split?.isSome = true)

/-- Whether cells are those of an action: its day, its kind, and the amount or the label. -/
inductive IsRow : CorporateAction → List Cell → Prop
  | dividend {d : Dividend} {m : Moment} (hdate : Moment.ofTimestamp d.timestamp = .ok m) :
    IsRow (.dividend d) [.text m.dayText, .text "dividend", .real d.amount]
  | split {s : Split} {m : Moment} {label : String} (hdate : Moment.ofTimestamp s.timestamp = .ok m)
    (hlabel : s.label = .ok label) :
    IsRow (.split s) [.text m.dayText, .text "split", .text label]

/-- The row of an action before its date is written. -/
def row? : CorporateAction → Except SheetError Sheet.ActionRow
  | dividend d => .ok (Sheet.dividendRow d)
  | split s => Sheet.splitRow s

/-- The cells of a row. -/
def cells? (row : Sheet.ActionRow) : Except SheetError (List Cell) := do
  return [← Sheet.dayCell row.timestamp, .text row.kind, row.value]

variable {action : CorporateAction} {row : Sheet.ActionRow} {cells : List Cell}

theorem row?_split_eq_ok_iff {s : Split} : (split s).row? = .ok row ↔
    ∃ label, s.label = .ok label ∧ row = ⟨s.timestamp, "split", .text label⟩ := by
  have hrow : (split s).row? = Sheet.splitRow s := rfl
  rw [hrow, Sheet.splitRow]
  cases s.label with
  | error fault => exact iff_of_false nofun fun ⟨_, h, _⟩ => nomatch h
  | ok label =>
    constructor
    · intro h
      exact ⟨label, rfl, (Except.ok.inj h).symm⟩
    · rintro ⟨other, h, rfl⟩
      cases h
      rfl

theorem timestamp_of_row? (h : action.row? = .ok row) : row.timestamp = action.timestamp := by
  cases action with
  | dividend d =>
    cases h
    rfl
  | split s =>
    obtain ⟨label, -, rfl⟩ := row?_split_eq_ok_iff.mp h
    rfl

theorem cells?_eq_ok_iff : cells? row = .ok cells ↔
    ∃ m, Moment.ofTimestamp row.timestamp = .ok m ∧
      cells = [.text m.dayText, .text row.kind, row.value] := by
  unfold cells? Sheet.dayCell
  cases Moment.ofTimestamp row.timestamp with
  | error fault => exact iff_of_false nofun fun ⟨_, h, _⟩ => nomatch h
  | ok m =>
    constructor
    · intro h
      exact ⟨m, rfl, (Except.ok.inj h).symm⟩
    · rintro ⟨other, h, rfl⟩
      cases h
      rfl

theorem isRow_of_cells? (hrow : action.row? = .ok row) (hcells : cells? row = .ok cells) :
    IsRow action cells := by
  obtain ⟨m, hdate, rfl⟩ := cells?_eq_ok_iff.mp hcells
  rw [timestamp_of_row? hrow] at hdate
  cases action with
  | dividend d =>
    cases hrow
    exact .dividend hdate
  | split s =>
    obtain ⟨label, hlabel, rfl⟩ := row?_split_eq_ok_iff.mp hrow
    exact .split hdate hlabel

theorem IsRow.exists_row? (h : IsRow action cells) :
    ∃ row, action.row? = .ok row ∧ cells? row = .ok cells := by
  cases h with
  | dividend hdate => exact ⟨_, rfl, cells?_eq_ok_iff.mpr ⟨_, hdate, rfl⟩⟩
  | split hdate hlabel =>
    exact ⟨_, row?_split_eq_ok_iff.mpr ⟨_, hlabel, rfl⟩, cells?_eq_ok_iff.mpr ⟨_, hdate, rfl⟩⟩

/-- An action has a row exactly if its time has a date and its ratio, if it is a split, has a label. -/
theorem exists_isRow_iff : (∃ cells, IsRow action cells) ↔
    (∃ m, Moment.ofTimestamp action.timestamp = .ok m) ∧
      ∀ s, action.split? = some s → Succeeds s.label := by
  constructor
  · rintro ⟨cells, h⟩
    cases h with
    | dividend hdate => exact ⟨⟨_, hdate⟩, nofun⟩
    | split hdate hlabel =>
      refine ⟨⟨_, hdate⟩, ?_⟩
      rintro s hs
      cases hs
      exact ⟨_, hlabel⟩
  · rintro ⟨⟨m, hdate⟩, hlabel⟩
    cases action with
    | dividend d => exact ⟨_, .dividend hdate⟩
    | split s =>
      obtain ⟨label, hlabel⟩ := hlabel s rfl
      exact ⟨_, .split hdate hlabel⟩

theorem IsRow.length (h : IsRow action cells) : cells.length = 3 := by
  cases h <;> rfl

theorem IsRow.isWritable (h : IsRow action cells) : ∀ cell ∈ cells, cell.IsWritable := by
  cases h with
  | dividend hdate => simp [Cell.IsWritable]
  | split hdate hlabel => simp [Cell.IsWritable]

end CorporateAction

namespace Actions

variable {actions : Actions}

/-- All actions, the dividends first. -/
def all (actions : Actions) : List CorporateAction :=
  actions.dividends.map .dividend ++ actions.splits.map .split

/-- All actions in the order of time. -/
def timeline (actions : Actions) : List CorporateAction :=
  actions.all.mergeSort fun a b => decide (a.timestamp ≤ b.timestamp)

/-- Whether a list merges the dividends and the splits in the order of time. -/
structure IsTimeline (actions : Actions) (timeline : List CorporateAction) : Prop where
  dividends : timeline.filterMap CorporateAction.dividend? = actions.dividends
  splits : timeline.filterMap CorporateAction.split? = actions.splits
  ordered : timeline.Pairwise CorporateAction.Precedes

theorem isSortOf_timeline (actions : Actions) :
    IsSortOf CorporateAction.timestamp actions.all actions.timeline :=
  isSortOf_mergeSort CorporateAction.timestamp actions.all

theorem filterMap_dividend?_all (actions : Actions) :
    actions.all.filterMap CorporateAction.dividend? = actions.dividends := by
  simp [all, List.filterMap_append, Function.comp_def, CorporateAction.dividend?]

theorem filterMap_split?_all (actions : Actions) :
    actions.all.filterMap CorporateAction.split? = actions.splits := by
  simp [all, List.filterMap_append, Function.comp_def, CorporateAction.split?]

/-- Series that ascend are merged. -/
theorem isTimeline_timeline
    (hdividends : actions.dividends.Pairwise fun a b => a.timestamp ≤ b.timestamp)
    (hsplits : actions.splits.Pairwise fun a b => a.timestamp ≤ b.timestamp) :
    actions.IsTimeline actions.timeline where
  dividends := by
    rw [← filterMap_dividend?_all] at hdividends ⊢
    apply actions.isSortOf_timeline.filterMap_eq _ hdividends
    rintro (d | s) other h
    · cases h
      rfl
    · contradiction
  splits := by
    rw [← filterMap_split?_all] at hsplits ⊢
    apply actions.isSortOf_timeline.filterMap_eq _ hsplits
    rintro (d | s) other h
    · contradiction
    · cases h
      rfl
  ordered := by
    apply actions.isSortOf_timeline.pairwise_lex
    -- before they are sorted, no dividend stands behind a split
    apply List.pairwise_append.mpr
    refine ⟨?_, ?_, ?_⟩
    · rw [List.pairwise_map]
      exact List.pairwise_of_forall fun _ _ h => nomatch h
    · rw [List.pairwise_map]
      exact List.pairwise_of_forall fun _ _ _ => rfl
    · intro a _ b hb _
      obtain ⟨s, -, rfl⟩ := List.mem_map.mp hb
      rfl

end Actions

namespace Sheet

open CorporateAction

variable {actions : Actions} {sheet : Sheet}

theorem ofActions_eq_ok_iff : ofActions actions = .ok sheet ↔
    ∃ splits, actions.splits.mapM splitRow = .ok splits ∧
      ∃ rows, ((actions.dividends.map dividendRow ++ splits).mergeSort
          fun a b => decide (a.timestamp ≤ b.timestamp)).mapM cells? = .ok rows ∧
        sheet = ⟨["date", "type", "value"], rows⟩ := by
  unfold ofActions
  rw [bind_eq_ok_iff]
  apply exists_congr
  intro splits
  apply and_congr_right
  intro _
  rw [bind_eq_ok_iff]
  apply exists_congr
  intro rows
  apply and_congr_right
  intro _
  exact (Except.ok.injEq _ _).to_iff.trans eq_comm

theorem forall₂_row?_all {splits : List ActionRow} (h : actions.splits.mapM splitRow = .ok splits) :
    List.Forall₂ (fun action row => action.row? = .ok row) actions.all
      (actions.dividends.map dividendRow ++ splits) := by
  apply List.rel_append
  · rw [List.forall₂_map_left_iff, List.forall₂_map_right_iff, List.forall₂_same]
    exact fun _ _ => rfl
  · rw [List.forall₂_map_left_iff]
    exact mapM_eq_ok_iff_forall₂.mp h

/-- The rows of a sheet are those of the actions in the order of time. -/
theorem isRow_of_ofActions (h : ofActions actions = .ok sheet) :
    sheet.headers = ["date", "type", "value"] ∧ List.Forall₂ IsRow actions.timeline sheet.rows := by
  obtain ⟨splits, hsplits, rows, hrows, rfl⟩ := ofActions_eq_ok_iff.mp h
  refine ⟨rfl, ?_⟩
  have htimes (action : CorporateAction) (row : ActionRow) (hrow : action.row? = .ok row) :
      action.timestamp = row.timestamp := (timestamp_of_row? hrow).symm
  -- actions and rows are sorted by the same times, so they stay side by side
  have hevents := forall₂_mergeSort (forall₂_row?_all hsplits) htimes
  apply (forall₂_trans hevents (mapM_eq_ok_iff_forall₂.mp hrows)).imp
  rintro action cells ⟨row, hrow, hcells⟩
  exact isRow_of_cells? hrow hcells

/-- A sheet of actions comes about exactly if each of them has a row. -/
theorem succeeds_ofActions_iff : Succeeds (ofActions actions) ↔
    ∀ action ∈ actions.all, ∃ cells, IsRow action cells := by
  constructor
  · rintro ⟨sheet, h⟩ action haction
    obtain ⟨-, hrows⟩ := isRow_of_ofActions h
    obtain ⟨cells, -, hcells⟩ :=
      exists_of_mem_forall₂ hrows (actions.isSortOf_timeline.mem_iff.mpr haction)
    exact ⟨cells, hcells⟩
  · intro h
    obtain ⟨splits, hsplits⟩ : Succeeds (actions.splits.mapM splitRow) := by
      apply succeeds_mapM_iff.mpr
      intro s hs
      obtain ⟨cells, hcells⟩ := h (.split s) (List.mem_append_right _ (List.mem_map_of_mem hs))
      obtain ⟨row, hrow, -⟩ := hcells.exists_row?
      exact ⟨row, hrow⟩
    obtain ⟨rows, hrows⟩ : Succeeds (((actions.dividends.map dividendRow ++ splits).mergeSort
        fun a b => decide (a.timestamp ≤ b.timestamp)).mapM cells?) := by
      apply succeeds_mapM_iff.mpr
      intro row hrow
      obtain ⟨action, haction, hstep⟩ :=
        exists_of_mem_forall₂ (forall₂_row?_all hsplits).flip (List.mem_mergeSort.mp hrow)
      obtain ⟨cells, hcells⟩ := h action haction
      obtain ⟨other, hother, hcells⟩ := hcells.exists_row?
      obtain rfl : row = other := Except.ok.inj (hstep.symm.trans hother)
      exact ⟨cells, hcells⟩
    exact ⟨_, ofActions_eq_ok_iff.mpr ⟨splits, hsplits, rows, hrows, rfl⟩⟩

theorem isRegular_of_ofActions (h : ofActions actions = .ok sheet) : sheet.IsRegular := by
  obtain ⟨hheaders, hrows⟩ := isRow_of_ofActions h
  have hrow : ∀ row ∈ sheet.rows, ∃ action, IsRow action row := by
    intro row hrow
    obtain ⟨action, -, haction⟩ := exists_of_mem_forall₂ hrows.flip hrow
    exact ⟨action, haction⟩
  constructor
  · rw [hheaders]
    exact List.cons_ne_nil _ _
  · intro row hmem
    obtain ⟨action, haction⟩ := hrow row hmem
    rw [hheaders]
    exact haction.length
  · intro row hmem
    obtain ⟨action, haction⟩ := hrow row hmem
    exact haction.isWritable

end Sheet

end Bourse
