import Bourse.Indicator.Series
import Bourse.Market.Bar
import Mathlib.Algebra.BigOperators.Group.List.Basic
import Mathlib.Algebra.Field.Rat
import Mathlib.Algebra.Order.BigOperators.Group.List
import Mathlib.Algebra.Order.Field.Basic
import Mathlib.Algebra.Order.Ring.Rat
import Mathlib.Order.Interval.Set.Defs
import Mathlib.Tactic.SplitIfs

/-! Exact arithmetic with a missing value. Nothing is rounded here: what is known is a number of an
ordered field, and what is missing stays missing in every operation. Sums are then sums of the
field, whatever the order in which their terms are added. -/

/-- Ordered fields with a function that stands for the square root. -/
class RootField (K : Type) extends Field K, LinearOrder K, IsStrictOrderedRing K where
  root : K → K

/-- The root of a rational that is a square; the root of any other is rounded down in numerator and
denominator. -/
instance : RootField ℚ where
  __ := (inferInstance : Field ℚ)
  __ := (inferInstance : LinearOrder ℚ)
  __ := (inferInstance : IsStrictOrderedRing ℚ)
  root x := (Nat.sqrt x.num.toNat : ℚ) / Nat.sqrt x.den

namespace Bourse

/-- A number of a field, or no number. -/
inductive Exact (K : Type) where
  | missing
  | known (value : K)
deriving DecidableEq

/-- A bar whose prices are known. -/
def Bar.exact {K : Type} (bar : Bar K) : Bar (Exact K) :=
  { bar with
    opening := .known bar.opening
    high := .known bar.high
    low := .known bar.low
    close := .known bar.close }

namespace Exact

variable {K : Type}

/-- Whether a number is there. -/
def IsKnown (a : Exact K) : Prop := ∃ x, a = known x

/-- An operation on numbers that are there. -/
def map₂ (f : K → K → K) : Exact K → Exact K → Exact K
  | known a, known b => known (f a b)
  | _, _ => missing

instance [Add K] : Add (Exact K) := ⟨map₂ (· + ·)⟩

instance [Sub K] : Sub (Exact K) := ⟨map₂ (· - ·)⟩

instance [Mul K] : Mul (Exact K) := ⟨map₂ (· * ·)⟩

instance [Zero K] : Zero (Exact K) := ⟨known 0⟩

instance [Neg K] : Neg (Exact K) where
  neg
    | known a => known (-a)
    | missing => missing

/-- A quotient; by zero there is none. -/
instance [Div K] [Zero K] [DecidableEq K] : Div (Exact K) where
  div
    | known a, known b => if b = 0 then missing else known (a / b)
    | _, _ => missing

instance [RootField K] : Scalar (Exact K) where
  ofInt n := known n
  ofVolume? n := some (known n)
  missing := missing
  isMissing
    | known _ => false
    | missing => true
  isZero
    | known a => a = 0
    | missing => false
  less
    | known a, known b => a < b
    | _, _ => false
  abs
    | known a => known |a|
    | missing => missing
  sqrt
    | known a => if a < 0 then missing else known (RootField.root a)
    | missing => missing

section Operations

theorem isKnown_known (x : K) : (known x).IsKnown := ⟨x, rfl⟩

theorem not_isKnown_missing : ¬(missing : Exact K).IsKnown := nofun

theorem known_add [Add K] (a b : K) : known a + known b = known (a + b) := rfl

theorem known_sub [Sub K] (a b : K) : known a - known b = known (a - b) := rfl

theorem known_mul [Mul K] (a b : K) : known a * known b = known (a * b) := rfl

theorem known_neg [Neg K] (a : K) : -known a = known (-a) := rfl

theorem known_div [Div K] [Zero K] [DecidableEq K] (a : K) {b : K} (h : b ≠ 0) :
    known a / known b = known (a / b) := if_neg h

instance [AddCommMonoid K] : AddCommMonoid (Exact K) where
  add_assoc a b c := by
    cases a <;> cases b <;> cases c <;> first | rfl | exact congrArg known (add_assoc _ _ _)
  zero_add a := by
    cases a <;> first | rfl | exact congrArg known (zero_add _)
  add_zero a := by
    cases a <;> first | rfl | exact congrArg known (add_zero _)
  add_comm a b := by
    cases a <;> cases b <;> first | rfl | exact congrArg known (add_comm _ _)
  nsmul := nsmulRec

theorem isKnown_map₂ {f : K → K → K} {a b : Exact K} :
    (map₂ f a b).IsKnown ↔ a.IsKnown ∧ b.IsKnown := by
  cases a with
  | missing => exact iff_of_false nofun fun h => not_isKnown_missing h.1
  | known x =>
    cases b with
    | missing => exact iff_of_false nofun fun h => not_isKnown_missing h.2
    | known y => exact iff_of_true ⟨_, rfl⟩ ⟨⟨x, rfl⟩, ⟨y, rfl⟩⟩

theorem isKnown_add [Add K] {a b : Exact K} : (a + b).IsKnown ↔ a.IsKnown ∧ b.IsKnown :=
  isKnown_map₂

theorem isKnown_sub [Sub K] {a b : Exact K} : (a - b).IsKnown ↔ a.IsKnown ∧ b.IsKnown :=
  isKnown_map₂

theorem isKnown_mul [Mul K] {a b : Exact K} : (a * b).IsKnown ↔ a.IsKnown ∧ b.IsKnown :=
  isKnown_map₂

theorem IsKnown.add [Add K] {a b : Exact K} (ha : a.IsKnown) (hb : b.IsKnown) :
    (a + b).IsKnown :=
  isKnown_add.mpr ⟨ha, hb⟩

theorem IsKnown.sub [Sub K] {a b : Exact K} (ha : a.IsKnown) (hb : b.IsKnown) :
    (a - b).IsKnown :=
  isKnown_sub.mpr ⟨ha, hb⟩

theorem IsKnown.mul [Mul K] {a b : Exact K} (ha : a.IsKnown) (hb : b.IsKnown) :
    (a * b).IsKnown :=
  isKnown_mul.mpr ⟨ha, hb⟩

theorem isKnown_div_known [Div K] [Zero K] [DecidableEq K] {a : Exact K} {b : K} (h : b ≠ 0) :
    (a / known b).IsKnown ↔ a.IsKnown := by
  cases a with
  | missing => exact Iff.rfl
  | known x => exact iff_of_true ⟨_, known_div x h⟩ ⟨x, rfl⟩

/-- A sum is known if all of its terms are. -/
theorem isKnown_sum [AddCommMonoid K] {xs : List (Exact K)} :
    xs.sum.IsKnown ↔ ∀ x ∈ xs, x.IsKnown := by
  induction xs with
  | nil => exact iff_of_true ⟨0, rfl⟩ nofun
  | cons x rest ih => rw [List.sum_cons, isKnown_add, ih, List.forall_mem_cons]

theorem sum_map_known [AddCommMonoid K] (xs : List K) : (xs.map known).sum = known xs.sum := by
  induction xs with
  | nil => rfl
  | cons x rest ih => rw [List.map_cons, List.sum_cons, List.sum_cons, ih, known_add]

/-- Whether a number is there and not negative. -/
def IsNonneg [Zero K] [LE K] (a : Exact K) : Prop := ∃ x : K, 0 ≤ x ∧ a = known x

theorem isNonneg_known [Zero K] [LE K] {x : K} (h : 0 ≤ x) : IsNonneg (known x) := ⟨x, h, rfl⟩

theorem IsNonneg.isKnown [Zero K] [LE K] {a : Exact K} (h : IsNonneg a) : a.IsKnown := by
  obtain ⟨x, -, rfl⟩ := h
  exact ⟨x, rfl⟩

/-- Whether a number is there and belongs to a set. -/
def IsIn (s : Set K) (a : Exact K) : Prop := ∃ x ∈ s, a = known x

theorem IsIn.isKnown {s : Set K} {a : Exact K} (h : IsIn s a) : a.IsKnown := by
  obtain ⟨x, -, rfl⟩ := h
  exact isKnown_known x

theorem isIn_known {s : Set K} {x : K} : IsIn s (known x) ↔ x ∈ s := by
  constructor
  · rintro ⟨y, hy, h⟩
    cases h
    exact hy
  · exact fun h => ⟨x, h, rfl⟩

/-- Numbers of a set are the images of numbers of the field. -/
theorem exists_map_known {s : Set K} {xs : List (Exact K)} (h : ∀ x ∈ xs, IsIn s x) :
    ∃ ys : List K, (∀ y ∈ ys, y ∈ s) ∧ xs = ys.map known := by
  induction xs with
  | nil => exact ⟨[], nofun, rfl⟩
  | cons x rest ih =>
    obtain ⟨⟨y, hy, rfl⟩, hrest⟩ := List.forall_mem_cons.mp h
    obtain ⟨ys, hys, rfl⟩ := ih hrest
    exact ⟨y :: ys, List.forall_mem_cons.mpr ⟨hy, hys⟩, rfl⟩

end Operations

/-! Sums of any order are sums -/

section Sums

variable [AddCommMonoid K]

theorem foldl_add_eq (start : Exact K) (xs : List (Exact K)) :
    xs.foldl (· + ·) start = start + xs.sum := by
  induction xs generalizing start with
  | nil => exact (add_zero start).symm
  | cons x rest ih => rw [List.foldl_cons, ih, List.sum_cons, add_assoc]

theorem sum_zipWith_add {xs ys : List (Exact K)} (h : xs.length = ys.length) :
    (List.zipWith (· + ·) xs ys).sum = xs.sum + ys.sum := by
  have hsum := List.sum_add_sum_eq_sum_zipWith_add_sum_drop xs ys
  rw [List.drop_eq_nil_of_le h.le, List.drop_eq_nil_of_le h.ge, List.sum_nil, add_zero,
    add_zero] at hsum
  exact hsum.symm

end Sums

variable [RootField K]

open Scalar Series

theorem ofInt_eq (n : Int) : (ofInt n : Exact K) = known (n : K) := rfl

theorem zero_eq : (Scalar.zero : Exact K) = 0 := congrArg known Int.cast_zero

theorem hundred_eq : (Scalar.hundred : Exact K) = known 100 := congrArg known (Int.cast_ofNat 100)

theorem neg_zero_eq : -(Scalar.zero : Exact K) = 0 := by
  rw [zero_eq]
  exact congrArg known neg_zero

theorem isMissing_eq_false {a : Exact K} : isMissing a = false ↔ a.IsKnown := by
  cases a with
  | missing => exact iff_of_false nofun nofun
  | known x => exact iff_of_true rfl ⟨x, rfl⟩

theorem sumInOrder_eq (xs : List (Exact K)) : sumInOrder xs = xs.sum := by
  rw [sumInOrder, neg_zero_eq]
  exact (foldl_add_eq 0 xs).trans (zero_add _)

theorem joinEight_eq {accumulators : List (Exact K)} (h : accumulators.length = 8) :
    joinEight accumulators = accumulators.sum := by
  obtain ⟨a, b, c, d, e, f, g, i, rfl⟩ : ∃ a b c d e f g i,
      accumulators = [a, b, c, d, e, f, g, i] := by
    match accumulators, h with
    | [a, b, c, d, e, f, g, i], _ => exact ⟨a, b, c, d, e, f, g, i, rfl⟩
  have hsum : joinEight [a, b, c, d, e, f, g, i] = ((a + b) + (c + d)) + ((e + f) + (g + i)) := rfl
  rw [hsum]
  simp only [List.sum_cons, List.sum_nil, add_zero, add_assoc]

/-- Blocks of eight leave eight accumulators and move terms into them. -/
theorem addBlocks_eq (accumulators xs : List (Exact K)) (h : accumulators.length = 8) :
    (addBlocks accumulators xs).1.length = 8 ∧
      (addBlocks accumulators xs).1.sum + (addBlocks accumulators xs).2.sum =
        accumulators.sum + xs.sum := by
  fun_induction addBlocks accumulators xs with
  | case1 accumulators a b c d e f g i rest ih =>
    have hlength : (List.zipWith (· + ·) accumulators [a, b, c, d, e, f, g, i]).length = 8 := by
      rw [List.length_zipWith, h]
      rfl
    obtain ⟨hlength', hsum⟩ := ih hlength
    refine ⟨hlength', hsum.trans ?_⟩
    -- the block leaves the terms that are still to come and enters the accumulators
    have hblock : [a, b, c, d, e, f, g, i].sum + rest.sum = (a :: b :: c :: d :: e :: f :: g :: i ::
        rest).sum := List.sum_append.symm
    rw [← hblock, ← add_assoc]
    exact congrArg (· + rest.sum) (sum_zipWith_add h)
  | case2 accumulators rest hrest => exact ⟨h, rfl⟩

theorem sumInBlocks_eq {xs : List (Exact K)} (h : 8 ≤ xs.length) : sumInBlocks xs = xs.sum := by
  have hlength : (xs.take 8).length = 8 := List.length_take_of_le h
  obtain ⟨hlength', hsum⟩ := addBlocks_eq (xs.take 8) (xs.drop 8) hlength
  calc sumInBlocks xs
      = joinEight (addBlocks (xs.take 8) (xs.drop 8)).1 +
          (addBlocks (xs.take 8) (xs.drop 8)).2.sum := foldl_add_eq _ _
    _ = (xs.take 8).sum + (xs.drop 8).sum := by rw [joinEight_eq hlength', hsum]
    _ = xs.sum := List.sum_take_add_sum_drop xs 8

theorem pairwiseSum_eq (xs : List (Exact K)) : pairwiseSum xs = xs.sum := by
  fun_induction pairwiseSum xs with
  | case1 xs hshort => exact sumInOrder_eq xs
  | case2 xs hshort hblocks => exact sumInBlocks_eq (Nat.not_lt.mp hshort)
  | case3 xs hshort hlong ihLeft ihRight =>
    rw [ihLeft, ihRight]
    exact List.sum_take_add_sum_drop xs _

theorem sum_eq (xs : List (Exact K)) : Series.sum xs = xs.sum := by
  rw [Series.sum, pairwiseSum_eq, zero_eq]
  exact zero_add _

/-! Comparisons -/

theorem isZero_known (x : K) : isZero (known x) = decide (x = 0) := rfl

theorem less_known (x y : K) : less (known x) (known y) = decide (x < y) := rfl

theorem larger_known (x y : K) : larger (known x) (known y) = known (max x y) := by
  rw [larger, less_known]
  rcases lt_or_ge x y with h | h
  · rw [if_pos (decide_eq_true h), max_eq_right h.le]
  · rw [if_neg (by simpa using h), max_eq_left h]

theorem smaller_known (x y : K) : smaller (known x) (known y) = known (min x y) := by
  rw [smaller, less_known]
  rcases lt_or_ge y x with h | h
  · rw [if_pos (decide_eq_true h), min_eq_right h.le]
  · rw [if_neg (by simpa using h), min_eq_left h]

/-- A number that is greater than zero is there. -/
theorem isNonneg_of_less {a : Exact K} (h : less Scalar.zero a = true) : IsNonneg a := by
  cases a with
  | missing => contradiction
  | known x =>
    rw [zero_eq] at h
    exact isNonneg_known (of_decide_eq_true h).le

theorem isNonneg_neg_of_less {a : Exact K} (h : less a Scalar.zero = true) : IsNonneg (-a) := by
  cases a with
  | missing => contradiction
  | known x =>
    rw [zero_eq] at h
    exact isNonneg_known (neg_nonneg.mpr (of_decide_eq_true h).le)

theorem isNonneg_zero : IsNonneg (Scalar.zero : Exact K) := by
  rw [zero_eq]
  exact isNonneg_known le_rfl

theorem abs_known (x : K) : Scalar.abs (known x) = known |x| := rfl

theorem sqrt_known {x : K} (h : 0 ≤ x) : sqrt (known x) = known (RootField.root x) :=
  if_neg (not_lt.mpr h)

/-! Known numbers -/

section Known

variable {a b : Exact K}

theorem isKnown_ofInt (n : Int) : (ofInt n : Exact K).IsKnown := ⟨n, rfl⟩

/-- A quotient is known unless the divisor is zero. -/
theorem IsKnown.div (ha : a.IsKnown) (hb : b.IsKnown) (hzero : isZero b = false) :
    (a / b).IsKnown := by
  obtain ⟨y, rfl⟩ := hb
  have hy : y ≠ 0 := by simpa [isZero_known] using hzero
  exact (isKnown_div_known hy).mpr ha

end Known

/-! Means -/

theorem natCast_ne_zero {p : Nat} (hp : 1 ≤ p) : ((p : Int) : K) ≠ 0 := by
  rw [Int.cast_natCast, Nat.cast_ne_zero]
  omega

theorem IsKnown.div_ofNat {a : Exact K} (ha : a.IsKnown) {p : Nat} (hp : 1 ≤ p) :
    (a / ofInt (p : Int)).IsKnown :=
  (isKnown_div_known (natCast_ne_zero hp)).mpr ha

theorem isKnown_mean {p : Nat} (hp : 1 ≤ p) {xs : List (Exact K)} :
    (mean p xs).IsKnown ↔ ∀ x ∈ xs, x.IsKnown := by
  rw [mean, sum_eq, ofInt_eq, isKnown_div_known (natCast_ne_zero hp)]
  exact isKnown_sum

theorem mean_map_known {p : Nat} (hp : 1 ≤ p) (xs : List K) :
    mean p (xs.map known) = known (xs.sum / p) := by
  rw [mean, sum_eq, sum_map_known, ofInt_eq, known_div _ (natCast_ne_zero hp), Int.cast_natCast]

theorem isNonneg_mean {p : Nat} (hp : 1 ≤ p) {xs : List (Exact K)}
    (h : ∀ x ∈ xs, IsNonneg x) : IsNonneg (mean p xs) := by
  obtain ⟨ys, hys, rfl⟩ : ∃ ys : List K, (∀ y ∈ ys, y ∈ Set.Ici 0) ∧ xs = ys.map known :=
    exists_map_known h
  exact ⟨_, div_nonneg (List.sum_nonneg hys) (Nat.cast_nonneg p), mean_map_known hp ys⟩

end Exact

end Bourse
