import Bourse.Proofs.Indicator.Batch

/-! Requests that ask for nothing. Whatever a request asks for leaves a trace in the report, a line
or a message, and nothing takes a trace away again. So a report is bare exactly if the request is
empty; a period that is refused, a zero for instance, is asked for as well. -/
namespace Bourse

/-- Whether a report shows neither a line nor a message. -/
def Report.IsBare (report : Report) : Prop := report.series = [] ∧ report.errors = []

namespace Indicator

open Entries

variable {bars : List (Bar Float)} {r : Request} {report next : Report}

theorem Item.names_ne_nil (item : Item) : item.names ≠ [] := by
  cases item <;> exact List.cons_ne_nil _ _

/-- A request is empty exactly if it has no item. -/
theorem isEmpty_iff_items_eq_nil : r.isEmpty = true ↔ items r = [] := by
  -- each of the two lists the kinds of indicators for itself, so they are compared kind by kind
  simp only [Request.isEmpty, items, Bool.and_eq_true, List.append_eq_nil_iff, List.map_eq_nil_iff,
    List.isEmpty_iff, Option.isNone_iff_eq_none, Option.toList_eq_nil_iff, Bool.not_eq_true',
    ite_eq_right_iff, List.cons_ne_nil, imp_false, Bool.not_eq_true]

/-- An item has an entry of its own, a line or a message. -/
theorem Item.series_ne_nil_or_messages_ne_nil {item : Item}
    (h : OnlyRefuses (item.lines bars)) : item.series bars ≠ [] ∨ item.messages bars ≠ [] := by
  unfold Item.series Item.messages
  cases hlines : item.lines bars with
  | ok lines =>
    -- each name of the item has its line, and there is a name
    have hlength := (Item.length_lines hlines).1
    refine .inl ?_
    rw [Ne, List.zip_eq_nil_iff, ← List.length_eq_zero_iff (l := lines), hlength,
      List.length_eq_zero_iff, or_self]
    exact item.names_ne_nil
  | error failure =>
    obtain ⟨refusal, rfl⟩ := h failure hlines
    exact .inr (List.cons_ne_nil _ _)

/-- An item that is entered leaves a trace, whatever was in the report before. -/
theorem not_isBare_of_enter {item : Item} (h : enter report (item.task bars) = .ok next) :
    ¬next.IsBare := by
  have hentered : OnlyRefuses (item.task bars).outcome := succeeds_enter.mp ⟨next, h⟩
  rw [enter_task hentered] at h
  cases h
  rintro ⟨hseries, herrors⟩
  rcases Item.series_ne_nil_or_messages_ne_nil (Item.onlyRefuses_task.mp hentered).2 with
    hnonempty | hnonempty
  · exact putAll_ne_nil hnonempty _ hseries
  · exact putAll_ne_nil hnonempty _ herrors

/-- A report over items is bare exactly if there are none. -/
theorem isBare_iff_of_foldlM {wanted : List Item} (hstart : report.IsBare)
    (h : (wanted.map (Item.task bars)).foldlM enter report = .ok next) :
    next.IsBare ↔ wanted = [] := by
  cases wanted with
  | nil =>
    cases h
    exact iff_of_true hstart rfl
  | cons item rest =>
    refine iff_of_false ?_ (List.cons_ne_nil item rest)
    rw [List.map_cons, List.foldlM_cons] at h
    obtain ⟨first, hfirst, hrest⟩ := bind_eq_ok_iff.mp h
    -- the first item leaves a trace, and so does every later one
    have hbare : ¬first.IsBare := not_isBare_of_enter hfirst
    refine foldlM_preserves (P := fun state => ¬state.IsBare) ?_ hbare hrest
    intro task htask state after _ hafter
    obtain ⟨later, -, rfl⟩ := List.mem_map.mp htask
    exact not_isBare_of_enter hafter

theorem isBare_iff_isEmpty (h : compute bars r = .ok report) :
    report.IsBare ↔ r.isEmpty = true := by
  rw [compute, tasks_eq] at h
  rw [isEmpty_iff_items_eq_nil]
  exact isBare_iff_of_foldlM ⟨rfl, rfl⟩ h

/-- Of an empty request, over any bars, the report is bare, and it is the only kind of request of
which it is. If all volumes are numbers, every request whose items can be told of has a report that
tells whether it is empty. -/
theorem empty_iff_reports_nothing (bars : List (Bar Float)) (r : Request) :
    (r.isEmpty = true ↔ ∃ report, compute bars r = .ok report ∧ report.IsBare) ∧
      ((∀ bar ∈ bars, HasVolume bar) → (∀ item ∈ items r, item.IsTellable bars.length) →
        ∃ report, compute bars r = .ok report ∧ (r.isEmpty = true ↔ report.IsBare)) := by
  constructor
  · constructor
    · intro hempty
      have hitems := isEmpty_iff_items_eq_nil.mp hempty
      refine ⟨{ timestamps := bars.map (·.timestamp) }, ?_, rfl, rfl⟩
      rw [compute, tasks_eq, hitems]
      rfl
    · rintro ⟨report, hreport, hbare⟩
      exact (isBare_iff_isEmpty hreport).mp hbare
  · intro hvolumes htell
    have hentered : ∀ item ∈ items r, OnlyRefuses (item.task bars).outcome := fun item hitem =>
      (Item.onlyRefuses_task_iff (Item.hasVolumes_of_volumes hvolumes item)).mpr (htell item hitem)
    obtain ⟨report, hreport⟩ := succeeds_compute.mpr hentered
    exact ⟨report, hreport, (isBare_iff_isEmpty hreport).symm⟩

/-- A period of zero is asked for, though all that comes of it is a message. -/
theorem zero_period_leaves_message :
    let bars : List (Bar Float) := [⟨0, 1, 2, 1, 2, 5⟩]
    let r : Request := { rsi := some 0 }
    (∀ bar ∈ bars, HasVolume bar) ∧ r.isEmpty = false ∧
      ∃ report, compute bars r = .ok report ∧ ¬report.IsBare := by
  intro bars r
  have hvolumes : ∀ bar ∈ bars, HasVolume bar := by
    unfold HasVolume
    decide +kernel
  have htell : ∀ item ∈ items r, item.IsTellable bars.length := by
    intro item hitem
    rw [List.mem_singleton.mp hitem]
    exact ⟨by decide, .inl (by decide)⟩
  obtain ⟨report, hreport, hbare⟩ := (empty_iff_reports_nothing bars r).2 hvolumes htell
  refine ⟨hvolumes, rfl, report, hreport, ?_⟩
  rw [← hbare]
  decide

end Indicator

end Bourse
