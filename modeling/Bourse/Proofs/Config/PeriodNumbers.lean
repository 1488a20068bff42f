import Bourse.Proofs.Config.Periods
import Bourse.Proofs.Number.Integers
import Bourse.Proofs.Number.Places
import Bourse.Proofs.Number.Rounding
import Bourse.Proofs.Text.Split

/-! The numbers of a list of periods. Each item denotes a number, and the periods are these numbers,
item by item, unless an item has a fraction: then its whole part is taken. -/
namespace Bourse

/-- The number that a datum denotes. -/
inductive Datum.Denotes : Datum → ℚ → Prop
  | bool (b : Bool) : Denotes (.bool b) (if b then 1 else 0)
  | int (n : ℤ) : Denotes (.int n) n
  | real {x : Float} {v : ℚ} (h : Binary64.HasValue x v) : Denotes (.real x) v
  | text {s : String} {n : ℤ} (h : Numeral.Shows s.toList n) : Denotes (.text s) n

namespace Binary64

variable {x : Float} {v w : ℚ}

theorem HasValue.eq (h : HasValue x v) (h' : HasValue x w) : v = w := by
  obtain ⟨negative, mantissa, exponent, hx, rfl⟩ := h
  obtain ⟨negative', mantissa', exponent', hx', rfl⟩ := h'
  rw [hx] at hx'
  cases hx'
  rfl

/-- The whole part of a value without a fraction is the value. -/
theorem HasValue.wholePart_eq {n : ℤ} (h : HasValue x n) : Moment.wholePart (ofFloat x) = n := by
  obtain ⟨negative, mantissa, exponent, hx, hvalue⟩ := h
  rw [hx, Moment.wholePart]
  rw [toRat] at hvalue
  have hden := scaleTwo_den_pos mantissa Nat.one_pos exponent
  generalize scaleTwo mantissa 1 exponent = scaled at hvalue hden ⊢
  obtain ⟨num, den⟩ := scaled
  dsimp only at hvalue hden ⊢
  rw [Rat.mkRat_eq_div] at hvalue
  have hden' : (den : ℚ) ≠ 0 := by exact_mod_cast hden.ne'
  have hden'' : (den : ℤ) ≠ 0 := by exact_mod_cast hden.ne'
  rw [div_eq_iff hden'] at hvalue
  have hproduct : (if negative then -(num : ℤ) else num) = n * den := by exact_mod_cast hvalue
  cases negative with
  | true =>
    rw [if_pos rfl] at hproduct
    rw [if_pos rfl, Int.natCast_ediv]
    have hnum : (num : ℤ) = -n * den := by linarith
    rw [hnum, Int.mul_ediv_cancel _ hden'', neg_neg]
  | false =>
    rw [if_neg Bool.false_ne_true] at hproduct
    rw [if_neg Bool.false_ne_true, Int.natCast_ediv, hproduct, Int.mul_ediv_cancel _ hden'']

end Binary64

namespace Config

open Numeral Text

variable {name : String} {value item : Datum} {n : ℤ}

/-! One item -/

/-- Whether an item is a number with a fraction. -/
def HasFraction (item : Datum) : Prop :=
  ∃ x v, item = .real x ∧ Binary64.HasValue x v ∧ ∀ n : ℤ, v ≠ n

theorem period_eq_ok_iff : period name item = .ok n ↔ toPeriod name item = .ok n ∧ 1 ≤ n := by
  rw [period, bind_eq_ok_iff]
  constructor
  · rintro ⟨m, hread, h⟩
    split_ifs at h with hsmall
    · cases h
    · cases h
      exact ⟨hread, Int.not_lt.mp hsmall⟩
  · rintro ⟨hread, hlarge⟩
    refine ⟨n, hread, ?_⟩
    rw [if_neg (Int.not_lt.mpr hlarge)]
    rfl

theorem denotes_of_toPeriod (h : toPeriod name item = .ok n) (hwhole : ¬HasFraction item) :
    item.Denotes n := by
  cases item with
  | bool b =>
    cases h
    have hdenotes := Datum.Denotes.bool b
    cases b with
    | true => exact_mod_cast hdenotes
    | false => exact_mod_cast hdenotes
  | int =>
    cases h
    exact .int n
  | real x =>
    rw [toPeriod] at h
    split at h
    · cases h
    · cases h
    · next _ hfinite hinfinite =>
      cases hx : Binary64.ofFloat x with
      | nan => exact absurd hx hfinite
      | infinity negative => exact absurd hx (hinfinite negative)
      | finite negative mantissa exponent =>
        have hvalue : Binary64.HasValue x (Binary64.toRat negative mantissa exponent) :=
          ⟨negative, mantissa, exponent, hx, rfl⟩
        have hexists : ∃ m : ℤ, Binary64.toRat negative mantissa exponent = m := by
          by_contra hnone
          exact hwhole ⟨x, _, rfl, hvalue, fun m hm => hnone ⟨m, hm⟩⟩
        obtain ⟨m, hm⟩ := hexists
        rw [hm] at hvalue
        rw [hvalue.wholePart_eq] at h
        cases h
        exact .real hvalue
  | text s =>
    rw [toPeriod] at h
    split at h
    · next m hinteger =>
      cases h
      exact .text (shows_of_integer? hinteger)
    · cases h
  | null | date | moment | list | mapping => cases h

theorem not_hasFraction_of_denotes (h : item.Denotes n) : ¬HasFraction item := by
  rintro ⟨x, v, rfl, hvalue, hfraction⟩
  cases h with
  | real hn => exact hfraction n (hvalue.eq hn)

/-! Lists of items -/

/-- The items that a value gives as a list of periods. -/
inductive Gives : Datum → List Datum → Prop
  | none : Gives .null []
  | one (n : ℤ) : Gives (.int n) [.int n]
  | text {s : String} {parts : List (List Char)} (h : Lists s.toList parts) :
      Gives (.text s) (parts.map fun part => .text (String.ofList part))
  | list (items : List Datum) : Gives (.list items) items

theorem gives_iff (name : String) {items : List Datum} :
    Gives value items ↔ periodItems name value = .ok items := by
  constructor
  · intro h
    cases h with
    | none => rfl
    | one n => rfl
    | text hparts =>
      rw [← lists_iff.mp hparts]
      rfl
    | list => rfl
  · intro h
    unfold periodItems at h
    split at h
    · cases h
      exact .none
    · cases h
      exact .one _
    · cases h
      exact .text (lists_listed _)
    · cases h
      exact .list _
    · cases h

theorem Gives.eq {items others : List Datum} (h : Gives value items) (h' : Gives value others) :
    items = others := by
  rw [gives_iff ""] at h h'
  exact Except.ok.inj (h.symm.trans h')

theorem toPeriods_eq_mapM (name : String) (items : List Datum) :
    toPeriods name items = items.mapM (period name) := by
  induction items with
  | nil => rfl
  | cons item rest ih => rw [toPeriods_cons, List.mapM_cons, ih]

theorem periodList_eq_ok_iff {periods : List ℤ} : periodList name value = .ok periods ↔
    ∃ items, Gives value items ∧
      List.Forall₂ (fun item n => period name item = .ok n) items periods := by
  rw [periodList, bind_eq_ok_iff]
  apply exists_congr
  intro items
  rw [gives_iff name, toPeriods_eq_mapM, mapM_eq_ok_iff_forall₂]

/-- Whether a value is refused with a message, or its periods are the numbers of its items. -/
def KeepsNumbers (name : String) (value : Datum) : Prop :=
  (∃ e message, periodList name value = .error e ∧ e.message? = some message) ∨
    ∃ items periods, Gives value items ∧ periodList name value = .ok periods ∧
      List.Forall₂ (fun item n => 1 ≤ n ∧ item.Denotes (n : ℤ)) items periods

/-- Whether a value is accepted as a list of periods though an item of it has a fraction. -/
def LosesFraction (name : String) (value : Datum) : Prop :=
  Succeeds (periodList name value) ∧ ∃ items, Gives value items ∧ ∃ item ∈ items, HasFraction item

theorem keepsNumbers_iff :
    KeepsNumbers name value ↔ ¬HasUnfitPeriod name value ∧ ¬LosesFraction name value := by
  rw [← failsSilently_periodList_iff]
  constructor
  · rintro (⟨e, message, herror, hmessage⟩ | ⟨items, periods, hitems, hok, hnumbers⟩)
    · rw [herror, failsSilently_error_iff, hmessage]
      exact ⟨nofun, fun hloses => not_succeeds_error e (herror ▸ hloses.1)⟩
    · refine ⟨hok ▸ not_failsSilently_ok periods, ?_⟩
      rintro ⟨-, others, hothers, item, hitem, hfraction⟩
      obtain rfl : others = items := hothers.eq hitems
      have hwhole : List.Forall₂ (fun item n => ¬HasFraction item ∧ item.Denotes (n : ℤ))
          others periods :=
        hnumbers.imp fun item n hn => ⟨not_hasFraction_of_denotes hn.2, hn.2⟩
      exact ((List.forall₂_and_left _ _).mp hwhole).1 item hitem hfraction
  · rintro ⟨hsilent, hloses⟩
    rcases not_failsSilently_iff.mp hsilent with ⟨periods, hok⟩ | ⟨e, message, herror, hmessage⟩
    · right
      obtain ⟨items, hitems, hperiods⟩ := periodList_eq_ok_iff.mp hok
      refine ⟨items, periods, hitems, hok, ?_⟩
      have hwhole : ∀ item ∈ items, ¬HasFraction item := fun item hitem hfraction =>
        hloses ⟨⟨periods, hok⟩, items, hitems, item, hitem, hfraction⟩
      apply ((List.forall₂_and_left _ _).mpr ⟨hwhole, hperiods⟩).imp
      rintro item n ⟨hitem, hn⟩
      obtain ⟨hread, hlarge⟩ := period_eq_ok_iff.mp hn
      exact ⟨hlarge, denotes_of_toPeriod hread hitem⟩
    · exact .inl ⟨e, message, herror, hmessage⟩

/-! Lists of positive integers -/

variable {periods : List ℤ}

/-- The text of a positive integer is a period unless it is too long. -/
theorem period_text_eq_ok_iff (h : 1 ≤ n) :
    period name (.text (Layout.integer n)) = .ok n ↔ n < 10 ^ mostDigits := by
  have htext : (Layout.integer n).toList = Layout.digitsOf n.natAbs := by
    rw [Layout.integer, if_neg (by omega), String.toList_ofList]
  have hcast : (n.natAbs : ℤ) = n := Int.natAbs_of_nonneg (by omega)
  rw [period_eq_ok_iff, and_iff_left h, toPeriod, htext]
  constructor
  · intro hread
    split at hread
    · next hinteger =>
      cases hread
      have hless := natAbs_lt_of_integer? hinteger
      rw [← hcast]
      exact_mod_cast hless
    · cases hread
  · intro hless
    rw [← hcast] at hless
    rw [Layout.integer?_digitsOf (by exact_mod_cast hless), hcast]

theorem periodList_int (h : 1 ≤ n) : periodList name (.int n) = .ok [n] := by
  apply periodList_eq_ok_iff.mpr
  exact ⟨_, .one n, .cons (period_eq_ok_iff.mpr ⟨rfl, h⟩) .nil⟩

theorem periodList_list (h : ∀ n ∈ periods, 1 ≤ n) :
    periodList name (.list (periods.map .int)) = .ok periods := by
  apply periodList_eq_ok_iff.mpr
  refine ⟨_, .list _, ?_⟩
  rw [List.forall₂_map_left_iff, List.forall₂_same]
  intro n hn
  exact period_eq_ok_iff.mpr ⟨rfl, h n hn⟩

/-- A text with the integers between commas gives the integers unless one of them is too long. -/
theorem periodList_text_eq_ok_iff {s : String} (h : ∀ n ∈ periods, 1 ≤ n)
    (hs : Lists s.toList (periods.map fun n => (Layout.integer n).toList)) :
    periodList name (.text s) = .ok periods ↔ ∀ n ∈ periods, n < 10 ^ mostDigits := by
  have hgives : Gives (.text s) (periods.map fun n => .text (Layout.integer n)) := by
    have htext := Gives.text hs
    rw [List.map_map] at htext
    simpa only [Function.comp_def, String.ofList_toList] using htext
  calc periodList name (.text s) = .ok periods
      ↔ List.Forall₂ (fun item n => period name item = .ok n)
          (periods.map fun n => .text (Layout.integer n)) periods := by
        rw [periodList_eq_ok_iff]
        constructor
        · rintro ⟨items, hitems, hall⟩
          rwa [hitems.eq hgives] at hall
        · exact fun hall => ⟨_, hgives, hall⟩
    _ ↔ ∀ n ∈ periods, period name (.text (Layout.integer n)) = .ok n := by
        rw [List.forall₂_map_left_iff, List.forall₂_same]
    _ ↔ ∀ n ∈ periods, n < 10 ^ mostDigits :=
        forall₂_congr fun n hn => period_text_eq_ok_iff (h n hn)

/-- Lists of periods keep their numbers, except for what is refused without a message or loses a
fraction, and positive integers are read alike however they are given. -/
theorem periods_are_kept (name : String) :
    (∀ value, KeepsNumbers name value ↔ ¬HasUnfitPeriod name value ∧ ¬LosesFraction name value) ∧
    periodList name .null = .ok [] ∧ periodList name (.text "") = .ok [] ∧
    ∀ periods : List ℤ, (∀ n ∈ periods, 1 ≤ n) →
      periodList name (.list (periods.map .int)) = .ok periods ∧
      (∀ n, periods = [n] → periodList name (.int n) = .ok periods) ∧
      ∀ s : String, Lists s.toList (periods.map fun n => (Layout.integer n).toList) →
        (periodList name (.text s) = .ok periods ↔ ∀ n ∈ periods, n < 10 ^ mostDigits) := by
  refine ⟨fun value => keepsNumbers_iff, rfl, ?_, ?_⟩
  · have hempty : Gives (.text "") [] := .text (.none (List.forall_mem_nil _))
    exact periodList_eq_ok_iff.mpr ⟨[], hempty, .nil⟩
  · intro periods hpositive
    refine ⟨periodList_list hpositive, ?_, fun s hs => periodList_text_eq_ok_iff hpositive hs⟩
    rintro n rfl
    exact periodList_int (hpositive n (List.mem_singleton_self n))

/-- Two and a half is accepted as two, and infinity is refused without a message. -/
theorem fraction_is_not_kept :
    ¬KeepsNumbers "sma" (.list [.real (Binary64.nearest false 5 2)]) ∧
      ¬KeepsNumbers "sma" (.list [.real (Binary64.infiniteFloat false)]) := by
  constructor
  · rw [keepsNumbers_iff, not_and, not_not]
    intro _
    have hvalue : Binary64.ofFloat (Binary64.nearest false 5 2) =
        .finite false (5 * 2 ^ 50) (-51) :=
      Binary64.ofFloat_nearest_of_exact false (by decide) (by decide) (by decide) (by decide)
        (by decide) (by norm_num)
    constructor
    · have hwhole : Moment.wholePart (.finite false (5 * 2 ^ 50) (-51)) = 2 := by decide
      refine ⟨[2], periodList_eq_ok_iff.mpr ⟨_, .list _, .cons ?_ .nil⟩⟩
      rw [period_eq_ok_iff, toPeriod, hvalue]
      exact ⟨congrArg Except.ok hwhole, by decide⟩
    · refine ⟨_, .list _, _, List.mem_singleton_self _, _, 5 / 2, rfl, ?_, ?_⟩
      · refine ⟨false, 5 * 2 ^ 50, -51, hvalue, ?_⟩
        rw [Binary64.toRat_eq]
        norm_num
      · intro n hn
        have htwice : (5 : ℤ) = n * 2 := by
          rw [div_eq_iff two_ne_zero] at hn
          exact_mod_cast hn
        omega
  · rw [keepsNumbers_iff]
    rintro ⟨hfit, -⟩
    have hitem : IsUnfit (.real (Binary64.infiniteFloat false)) :=
      .infinite (Binary64.ofFloat_infiniteFloat false)
    have hitems : periodItems "sma" (.list [.real (Binary64.infiniteFloat false)]) =
        .ok ([] ++ .real (Binary64.infiniteFloat false) :: []) := rfl
    exact hfit (.intro hitems (List.forall_mem_nil _) hitem)

end Config

end Bourse
