import Bourse.Datum
import Mathlib.Algebra.Order.Ring.Nat
import Mathlib.Tactic.SplitIfs

/-! Data that can be written, and entries of mappings. A key that is set anew stands behind the
others, and what is set under a key leaves the values under the others as they are. -/
namespace Bourse.Datum

theorem isWritable_int {n : Int} :
    (Datum.int n).isWritable = true ↔ n.natAbs < 10 ^ Numeral.mostDigits := by
  rw [Datum.isWritable, decide_eq_true_eq]
  exact Nat.length_toDigits_le_iff (by decide) (by decide)

variable {column name : String}

theorem setEntry_of_fresh {key value : Datum} {entries : List (Datum × Datum)}
    (h : ∀ entry ∈ entries, sameKey entry.1 key = false) :
    setEntry key value entries = entries ++ [(key, value)] := by
  have hnone : ¬(entries.any fun entry => sameKey entry.1 key) = true := by
    rw [Bool.not_eq_true, List.any_eq_false]
    exact fun entry hentry => Bool.eq_false_iff.mp (h entry hentry)
  rw [setEntry, if_neg hnone]

theorem sameKey_text {a b : String} (h : a ≠ b) :
    sameKey (.text a) (.text b) = false :=
  beq_false_of_ne h

theorem get?_cons_text (other : String) (value : Datum) (rest : List (Datum × Datum)) :
    get? ((.text other, value) :: rest) name = if other = name then some value else get? rest name := by
  by_cases h : other = name <;> simp [get?, h]

theorem get?_replace_of_ne (h : column ≠ name) (value : Datum) (entries : List (Datum × Datum)) :
    get? (entries.map fun entry => if sameKey entry.1 (.text column) then (entry.1, value) else entry)
      name = get? entries name := by
  induction entries with
  | nil => rfl
  | cons entry rest ih =>
    obtain ⟨key, old⟩ := entry
    -- an entry keeps its key, and under the name its value too
    obtain ⟨new, hnew, hsame⟩ : ∃ new : Datum, (if sameKey key (.text column) then (key, value)
        else (key, old)) = (key, new) ∧ (key = .text name → new = old) := by
      split_ifs with hkey
      · refine ⟨value, rfl, ?_⟩
        rintro rfl
        rw [sameKey_text h.symm] at hkey
        contradiction
      · exact ⟨old, rfl, fun _ => rfl⟩
    rw [List.map_cons, hnew]
    cases key with
    | text other =>
      rw [get?_cons_text, get?_cons_text, ih]
      split_ifs with hname
      · rw [hsame (congrArg text hname)]
      · rfl
    | _ => exact ih

/-- What is set under a name leaves the other names as they are. -/
theorem get?_setEntry_of_ne (h : column ≠ name) (value : Datum) (entries : List (Datum × Datum)) :
    get? (setEntry (.text column) value entries) name = get? entries name := by
  unfold setEntry
  split_ifs
  · exact get?_replace_of_ne h value entries
  · unfold get?
    rw [List.find?_append]
    cases entries.find? _ with
    | some entry => rfl
    | none => simp [h]

end Bourse.Datum
