import Bourse.Config.Periods
import Bourse.Proofs.Datum
import Bourse.Proofs.Number.Coding
import Bourse.Proofs.Number.Digits
import Bourse.Proofs.Results

/-! How requests fail without a message. A period does so if it is infinite, or if the message about
it would have to show an integer of more digits than an integer may have, and a request does so
besides if a name in it is no text. -/
namespace Bourse

namespace Config

open Numeral

/-! One period -/

/-- Reads one period, which is at least one. -/
def period (name : String) (item : Datum) : Except PeriodError Int := do
  let period ← toPeriod name item
  if period < 1 then throw (.ofPeriod name period)
  return period

/-- Whether an item is refused without a message. Integers that are periods may be of any length. -/
inductive IsUnfit : Datum → Prop
  | infinite {x : Float} {negative : Bool} (h : Binary64.ofFloat x = .infinity negative) :
      IsUnfit (.real x)
  | tooSmall {n : Int} (hsmall : n < 1) (hlong : (Datum.int n).isWritable = false) :
      IsUnfit (.int n)
  | list {items : List Datum} (h : (Datum.list items).isWritable = false) : IsUnfit (.list items)
  | mapping {entries : List (Datum × Datum)} (h : (Datum.mapping entries).isWritable = false) :
      IsUnfit (.mapping entries)

variable {name : String}

theorem message?_ofItem (item : Datum) :
    (PeriodError.ofItem name item).message? = none ↔ item.isWritable = false := by
  unfold PeriodError.ofItem
  split_ifs with h
  · exact iff_of_false nofun (Bool.not_eq_false _ ▸ h)
  · exact iff_of_true rfl (Bool.eq_false_iff.mpr h)

theorem message?_ofPeriod (n : Int) :
    (PeriodError.ofPeriod name n).message? = none ↔ (Datum.int n).isWritable = false := by
  unfold PeriodError.ofPeriod
  split_ifs with h
  · exact iff_of_false nofun (Bool.not_eq_false _ ▸ h)
  · exact iff_of_true rfl (Bool.eq_false_iff.mpr h)

/-- An item that has a whole part is refused without a message only if that is small and long. -/
theorem failsSilently_period_of_ok {item : Datum} {n : Int} (h : toPeriod name item = .ok n) :
    FailsSilently PeriodError.message? (period name item) ↔
      n < 1 ∧ (Datum.int n).isWritable = false := by
  have hperiod : period name item = if n < 1 then .error (.ofPeriod name n) else .ok n := by
    rw [period, h]
    rfl
  rw [hperiod]
  split_ifs with hsmall
  · rw [failsSilently_error_iff, message?_ofPeriod, and_iff_right hsmall]
  · exact iff_of_false (not_failsSilently_ok n) fun hfails => hsmall hfails.1

theorem failsSilently_period_of_error {item : Datum} {e : PeriodError}
    (h : toPeriod name item = .error e) :
    FailsSilently PeriodError.message? (period name item) ↔ e.message? = none := by
  have hperiod : period name item = .error e := by
    rw [period, h]
    rfl
  rw [hperiod, failsSilently_error_iff]

/-- The whole part of a value is not too long to be written. -/
theorem isWritable_wholePart (x : Float) :
    (Datum.int (Moment.wholePart (Binary64.ofFloat x))).isWritable = true := by
  have hpow (a b c : Nat) (h : a + b ≤ c) : 2 ^ a * 2 ^ b ≤ 10 ^ c := by
    rw [← Nat.pow_add]
    exact (Nat.pow_le_pow_left (by decide) _).trans (Nat.pow_le_pow_right (by decide) h)
  rw [Datum.isWritable_int]
  exact (Binary64.natAbs_wholePart_lt x).trans_le (hpow _ _ _ (by decide))

theorem not_failsSilently_period {item : Datum} {n : Int} (h : toPeriod name item = .ok n)
    (hwritable : (Datum.int n).isWritable = true) :
    ¬FailsSilently PeriodError.message? (period name item) := by
  rw [failsSilently_period_of_ok h, hwritable]
  exact fun hfails => nomatch hfails.2

theorem failsSilently_period_of_ofItem {item : Datum}
    (h : toPeriod name item = .error (.ofItem name item)) :
    FailsSilently PeriodError.message? (period name item) ↔ item.isWritable = false := by
  rw [failsSilently_period_of_error h, message?_ofItem]

theorem failsSilently_period_iff {item : Datum} :
    FailsSilently PeriodError.message? (period name item) ↔ IsUnfit item := by
  cases item with
  | null => exact iff_of_false ((failsSilently_period_of_ofItem rfl).not.mpr nofun) nofun
  | date d => exact iff_of_false ((failsSilently_period_of_ofItem rfl).not.mpr nofun) nofun
  | moment m => exact iff_of_false ((failsSilently_period_of_ofItem rfl).not.mpr nofun) nofun
  | bool b =>
    refine iff_of_false (not_failsSilently_period rfl ?_) nofun
    cases b <;> rfl
  | int n =>
    rw [failsSilently_period_of_ok rfl]
    constructor
    · exact fun h => .tooSmall h.1 h.2
    · intro h
      cases h with
      | tooSmall hsmall hlong => exact ⟨hsmall, hlong⟩
  | real x =>
    cases hvalue : Binary64.ofFloat x with
    | nan =>
      have hread : toPeriod name (.real x) = .error (.ofItem name (.real x)) := by
        simp only [toPeriod, hvalue]
      refine iff_of_false ((failsSilently_period_of_ofItem hread).not.mpr nofun) fun h => ?_
      cases h with
      | infinite hinfinite => exact nomatch hvalue.symm.trans hinfinite
    | infinity negative =>
      have hread : toPeriod name (.real x) = .error .infinite := by
        simp only [toPeriod, hvalue]
      exact iff_of_true ((failsSilently_period_of_error hread).mpr rfl) (.infinite hvalue)
    | finite negative mantissa exponent =>
      have hread : toPeriod name (.real x) = .ok (Moment.wholePart (Binary64.ofFloat x)) := by
        simp only [toPeriod, hvalue]
      refine iff_of_false (not_failsSilently_period hread (isWritable_wholePart x)) fun h => ?_
      cases h with
      | infinite hinfinite => exact nomatch hvalue.symm.trans hinfinite
  | text s =>
    refine iff_of_false ?_ nofun
    cases hinteger : integer? s.toList with
    | none =>
      have hread : toPeriod name (.text s) = .error (.ofItem name (.text s)) := by
        simp only [toPeriod, hinteger]
      exact (failsSilently_period_of_ofItem hread).not.mpr nofun
    | some n =>
      have hread : toPeriod name (.text s) = .ok n := by
        simp only [toPeriod, hinteger]
      exact not_failsSilently_period hread
        (Datum.isWritable_int.mpr (natAbs_lt_of_integer? hinteger))
  | list items =>
    rw [failsSilently_period_of_ofItem rfl]
    constructor
    · exact .list
    · intro h
      cases h with
      | list hlong => exact hlong
  | mapping entries =>
    rw [failsSilently_period_of_ofItem rfl]
    constructor
    · exact .mapping
    · intro h
      cases h with
      | mapping hlong => exact hlong

/-! Lists of periods -/

theorem toPeriods_cons (item : Datum) (rest : List Datum) : toPeriods name (item :: rest) =
    (do return (← period name item) :: (← toPeriods name rest)) := by
  rw [toPeriods, period]
  cases toPeriod name item with
  | error e => rfl
  | ok n =>
    simp only [bind, Except.bind]
    split_ifs <;> rfl

theorem toPeriods_eq_error_iff {items : List Datum} {e : PeriodError} :
    toPeriods name items = .error e ↔ FirstFailure (period name) items e := by
  induction items with
  | nil => exact iff_of_false nofun not_firstFailure_nil
  | cons item rest ih =>
    rw [firstFailure_cons, toPeriods_cons, bind_eq_error_iff, ← ih]
    refine or_congr_right ?_
    constructor
    · rintro ⟨n, hn, hrest⟩
      exact ⟨⟨n, hn⟩, (bind_eq_error_iff.mp hrest).resolve_right fun ⟨_, _, h⟩ => nomatch h⟩
    · rintro ⟨⟨n, hn⟩, hrest⟩
      exact ⟨n, hn, bind_eq_error_iff.mpr (.inl hrest)⟩

/-- Whether a value is refused as a list of periods without a message: one of its items is, and
those before it are periods. -/
inductive HasUnfitPeriod (name : String) (value : Datum) : Prop
  | intro {before : List Datum} {item : Datum} {after : List Datum}
      (hitems : periodItems name value = .ok (before ++ item :: after))
      (hbefore : ∀ earlier ∈ before, Succeeds (period name earlier)) (hitem : IsUnfit item) :
      HasUnfitPeriod name value

theorem failsSilently_periodList_iff {value : Datum} :
    FailsSilently PeriodError.message? (periodList name value) ↔ HasUnfitPeriod name value := by
  have hitems : ¬FailsSilently PeriodError.message? (periodItems name value) := by
    unfold periodItems
    split
    all_goals first
      | exact not_failsSilently_ok _
      | exact failsSilently_error_iff.not.mpr nofun
  have hperiods (items : List Datum) : FailsSilently PeriodError.message? (toPeriods name items) ↔
      ∃ before item after, items = before ++ item :: after ∧
        (∀ earlier ∈ before, Succeeds (period name earlier)) ∧ IsUnfit item := by
    simp only [FailsSilently, toPeriods_eq_error_iff, exists_firstFailure_and_iff]
    exact exists_congr fun before => exists_congr fun item => exists_congr fun after =>
      and_congr_right fun _ => and_congr_right fun _ => failsSilently_period_iff
  rw [periodList, failsSilently_bind_iff, or_iff_right hitems]
  simp only [hperiods]
  constructor
  · rintro ⟨items, hread, before, item, after, rfl, hbefore, hitem⟩
    exact .intro hread hbefore hitem
  · rintro ⟨hread, hbefore, hitem⟩
    exact ⟨_, hread, _, _, _, rfl, hbefore, hitem⟩

/-! Requests -/

variable {entries : List (Datum × Datum)} {usual : List Int}

/-- Whether the periods under a name can be read, if there are any. -/
def IsReadable (entries : List (Datum × Datum)) (name : String) : Prop :=
  ∀ value, Datum.get? entries name = some value → Succeeds (periodList name value)

/-- Whether a datum is refused as a request without a message: among its lists of periods is one
that is, or these can be read and there is a name that is no text. -/
inductive IsUnfitRequest : Datum → Prop
  | period {entries : List (Datum × Datum)} {before : List String} {name : String}
      {after : List String} {value : Datum} (hnames : listNames = before ++ name :: after)
      (hbefore : ∀ earlier ∈ before, IsReadable entries earlier)
      (hvalue : Datum.get? entries name = some value) (hperiod : HasUnfitPeriod name value) :
      IsUnfitRequest (.mapping entries)
  | name {entries : List (Datum × Datum)} {entry : Datum × Datum}
      (hperiods : ∀ name ∈ listNames, IsReadable entries name) (hentry : entry ∈ entries)
      (hname : ∀ text, entry.1 ≠ .text text) : IsUnfitRequest (.mapping entries)

end Config

end Bourse
