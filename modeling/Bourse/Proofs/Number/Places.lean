import Bourse.Proofs.Number.Digits
import Bourse.Proofs.Number.Nearest

/-! Numbers as they are written. The text of an integer and that of a finite number with fixed
decimal places hold digits, a sign and a point only, and they are read as the decimals they show. -/
namespace Bourse

namespace Numeral

theorem isMark_of_isDigit {digits : List Char} (h : ∀ c ∈ digits, c.isDigit = true) :
    ∀ c ∈ digits, IsMark c :=
  fun c hc => .inl (h c hc)

theorem isMark_of_mem_signText {negative : Bool} : ∀ c ∈ signText negative, IsMark c := by
  cases negative with
  | false => exact List.forall_mem_nil _
  | true => exact List.forall_mem_singleton.mpr (.inr (.inl rfl))

/-- Zeros in front of the digits of a natural change nothing. -/
theorem ofDigits_padZeros (width n : Nat) :
    ofDigits (values (Layout.padZeros width (Layout.digitsOf n))) = n := by
  rw [ofDigits, foldl_values (isDigit_of_mem_padZeros isDigit_of_mem_digitsOf), Layout.padZeros,
    Nat.ofDigitChars_append, Nat.ofDigitChars_replicate_zero, Nat.mul_zero]
  exact Nat.ofDigitChars_ten_toDigits

end Numeral

namespace Layout

open Numeral

theorem length_padZeros (width : Nat) (digits : List Char) :
    (padZeros width digits).length = max width digits.length := by
  rw [padZeros, List.length_append, List.length_replicate]
  omega

theorem length_digitsOf_le {n k : Nat} (hk : 0 < k) (h : n < 10 ^ k) : (digitsOf n).length ≤ k :=
  (Nat.length_toDigits_le_iff (by decide) hk).mpr h

/-! Integers -/

/-- The digits of a natural that is not too long are read as the natural. -/
theorem integer?_digitsOf {n : Nat} (h : n < 10 ^ mostDigits) :
    integer? (digitsOf n) = some (n : Int) := by
  have hlength := length_digitsOf_le (by decide : 0 < mostDigits) h
  rw [integer?_of_isDigit isDigit_of_mem_digitsOf (digitsOf_ne_nil n) hlength, ofDigits_digitsOf]

theorem toList_integer (n : Int) :
    (integer n).toList = signText (decide (n < 0)) ++ digitsOf n.natAbs := by
  rw [integer, String.toList_ofList]
  by_cases h : n < 0
  · rw [if_pos h, decide_eq_true h]
    rfl
  · rw [if_neg h, decide_eq_false h]
    rfl

theorem isMark_of_mem_integer (n : Int) : ∀ c ∈ (integer n).toList, IsMark c := by
  rw [toList_integer]
  exact List.forall_mem_append.mpr
    ⟨isMark_of_mem_signText, isMark_of_isDigit isDigit_of_mem_digitsOf⟩

theorem float?_integer (n : Int) : float? (integer n).toList =
    some (Binary64.nearestDecimal (decide (n < 0)) n.natAbs 0) := by
  rw [float?_of_isMark (isMark_of_mem_integer n), toList_integer,
    decimal?_whole _ (isSome_of_isDigit isDigit_of_mem_digitsOf) (digitsOf_ne_nil _), ofDigits_digitsOf]
  rfl

/-! Fixed places -/

/-- The digits of a value with a number of decimal places. -/
def placeDigits (places mantissa : Nat) (exponent : Int) : List Char :=
  padZeros (places + 1) (digitsOf (Binary64.toPlaces mantissa exponent places))

variable {places mantissa : Nat} {exponent : Int}

theorem isDigit_of_mem_placeDigits :
    ∀ c ∈ placeDigits places mantissa exponent, c.isDigit = true :=
  isDigit_of_mem_padZeros isDigit_of_mem_digitsOf

theorem lt_length_placeDigits (places mantissa : Nat) (exponent : Int) :
    places < (placeDigits places mantissa exponent).length := by
  rw [placeDigits, length_padZeros]
  omega

theorem ofDigits_placeDigits : ofDigits (values (placeDigits places mantissa exponent)) =
    Binary64.toPlaces mantissa exponent places :=
  ofDigits_padZeros _ _

/-- The digits in front of the point. -/
def wholeDigits (places mantissa : Nat) (exponent : Int) : List Char :=
  (placeDigits places mantissa exponent).take
    ((placeDigits places mantissa exponent).length - places)

/-- The digits behind the point. -/
def fractionDigits (places mantissa : Nat) (exponent : Int) : List Char :=
  (placeDigits places mantissa exponent).drop
    ((placeDigits places mantissa exponent).length - places)

theorem wholeDigits_append_fractionDigits (places mantissa : Nat) (exponent : Int) :
    wholeDigits places mantissa exponent ++ fractionDigits places mantissa exponent =
      placeDigits places mantissa exponent :=
  List.take_append_drop _ _

theorem length_fractionDigits : (fractionDigits places mantissa exponent).length = places := by
  have hlength := lt_length_placeDigits places mantissa exponent
  rw [fractionDigits, List.length_drop]
  omega

theorem wholeDigits_ne_nil : wholeDigits places mantissa exponent ≠ [] := by
  have hlength := lt_length_placeDigits places mantissa exponent
  rw [← List.length_pos_iff, wholeDigits, List.length_take]
  omega

theorem isDigit_of_mem_wholeDigits :
    ∀ c ∈ wholeDigits places mantissa exponent, c.isDigit = true :=
  fun c hc => isDigit_of_mem_placeDigits c (List.mem_of_mem_take hc)

theorem isDigit_of_mem_fractionDigits :
    ∀ c ∈ fractionDigits places mantissa exponent, c.isDigit = true :=
  fun c hc => isDigit_of_mem_placeDigits c (List.mem_of_mem_drop hc)

/-- The point and the digits behind it; without decimal places there is none. -/
def fractionText (places mantissa : Nat) (exponent : Int) : List Char :=
  if places = 0 then [] else '.' :: fractionDigits places mantissa exponent

theorem toList_fixedValue (negative : Bool) :
    (fixedValue places (.finite negative mantissa exponent)).toList =
      signText negative ++
        (wholeDigits places mantissa exponent ++ fractionText places mantissa exponent) := by
  rw [fixedValue, String.toList_ofList]
  cases negative <;> rfl

theorem isMark_of_mem_fixedValue (negative : Bool) :
    ∀ c ∈ (fixedValue places (.finite negative mantissa exponent)).toList, IsMark c := by
  rw [toList_fixedValue]
  refine List.forall_mem_append.mpr ⟨isMark_of_mem_signText, List.forall_mem_append.mpr
    ⟨isMark_of_isDigit isDigit_of_mem_wholeDigits, ?_⟩⟩
  unfold fractionText
  split_ifs
  · exact List.forall_mem_nil _
  · exact List.forall_mem_cons.mpr
      ⟨.inr (.inr rfl), isMark_of_isDigit isDigit_of_mem_fractionDigits⟩

/-- A text with fixed places is read as the value rounded to these places. -/
theorem decimal?_fixedValue (negative : Bool) :
    decimal? (fixedValue places (.finite negative mantissa exponent)).toList =
      some ⟨negative, Binary64.toPlaces mantissa exponent places, -places⟩ := by
  rw [toList_fixedValue, fractionText]
  split_ifs with hplaces
  · have hwhole : wholeDigits places mantissa exponent = placeDigits places mantissa exponent := by
      rw [wholeDigits, hplaces, Nat.sub_zero, List.take_length]
    rw [List.append_nil, decimal?_whole negative (isSome_of_isDigit isDigit_of_mem_wholeDigits)
      wholeDigits_ne_nil, hwhole, ofDigits_placeDigits, hplaces]
    rfl
  · rw [decimal?_fraction negative (isSome_of_isDigit isDigit_of_mem_wholeDigits)
      wholeDigits_ne_nil (isSome_of_isDigit isDigit_of_mem_fractionDigits),
      wholeDigits_append_fractionDigits, ofDigits_placeDigits, length_fractionDigits]

theorem float?_fixedValue (negative : Bool) :
    float? (fixedValue places (.finite negative mantissa exponent)).toList =
      some (Binary64.nearestDecimal negative (Binary64.toPlaces mantissa exponent places)
        (-places)) := by
  rw [float?_of_isMark (isMark_of_mem_fixedValue negative), decimal?_fixedValue]
  rfl

/-! How long the text of a number can be -/

theorem roundDiv_le (n d : Nat) : roundDiv n d ≤ n / d + 1 := by
  unfold roundDiv
  dsimp only
  split_ifs <;> omega

theorem toPlaces_lt (places : Nat) (hmantissa : mantissa < 2 ^ 53)
    (hexponent : exponent ≤ Binary64.greatestExponent) :
    Binary64.toPlaces mantissa exponent places <
      10 ^ (53 + Binary64.greatestExponent + places) := by
  set n := (scaleTwo mantissa 1 exponent).1 with hn
  set d := (scaleTwo mantissa 1 exponent).2 with hd
  have hdPositive : 0 < d := scaleTwo_den_pos mantissa Nat.one_pos exponent
  have hvalue : n < 2 ^ 53 * 2 ^ Binary64.greatestExponent * d := by
    rw [← Nat.div_lt_iff_lt_mul hdPositive]
    exact Binary64.div_scaleTwo_lt hmantissa hexponent
  have hscaled : n * 10 ^ places / d < 2 ^ 53 * 2 ^ Binary64.greatestExponent * 10 ^ places := by
    rw [Nat.div_lt_iff_lt_mul hdPositive, Nat.mul_right_comm]
    exact Nat.mul_lt_mul_of_pos_right hvalue (Nat.pow_pos (by decide))
  have hpower : 2 ^ 53 * 2 ^ Binary64.greatestExponent < 10 ^ (53 + Binary64.greatestExponent) := by
    rw [← pow_add]
    exact Nat.pow_lt_pow_left (by decide) (by decide)
  have hplaces : Binary64.toPlaces mantissa exponent places = roundDiv (n * 10 ^ places) d := rfl
  -- rounding adds at most one, for which there is room between the powers of two and of ten
  calc Binary64.toPlaces mantissa exponent places
      = roundDiv (n * 10 ^ places) d := hplaces
    _ ≤ n * 10 ^ places / d + 1 := roundDiv_le _ _
    _ ≤ 2 ^ 53 * 2 ^ Binary64.greatestExponent * 10 ^ places := hscaled
    _ < 10 ^ (53 + Binary64.greatestExponent) * 10 ^ places :=
        Nat.mul_lt_mul_of_pos_right hpower (Nat.pow_pos (by decide))
    _ = 10 ^ (53 + Binary64.greatestExponent + places) := (pow_add _ _ _).symm

theorem length_fixedValue_le (places : Nat) (negative : Bool) (hmantissa : mantissa < 2 ^ 53)
    (hexponent : exponent ≤ Binary64.greatestExponent) :
    (fixedValue places (.finite negative mantissa exponent)).toList.length ≤
      Binary64.greatestExponent + places + 55 := by
  have hdigits := length_digitsOf_le (by omega) (toPlaces_lt places hmantissa hexponent)
  have hpadded := length_padZeros (places + 1)
    (digitsOf (Binary64.toPlaces mantissa exponent places))
  have hparts := congrArg List.length (wholeDigits_append_fractionDigits places mantissa exponent)
  have hsign : (signText negative).length ≤ 1 := by cases negative <;> decide
  have hfraction : (fractionText places mantissa exponent).length ≤
      (fractionDigits places mantissa exponent).length + 1 := by
    unfold fractionText
    split_ifs
    · exact Nat.zero_le _
    · exact Nat.le_refl _
  rw [placeDigits, hpadded, List.length_append] at hparts
  rw [toList_fixedValue, List.length_append, List.length_append]
  omega

/-! Finite numbers -/

section Finite

variable {x : Float} (hx : x.isFinite = true)

include hx

theorem exists_float?_fixed (places : Nat) :
    ∃ y, Numeral.float? (fixed places x).toList = some y := by
  obtain ⟨negative, mantissa, exponent, hvalue⟩ := Binary64.exists_ofFloat_of_isFinite hx
  rw [fixed, hvalue]
  exact ⟨_, float?_fixedValue negative⟩

theorem isMark_of_mem_fixed : ∀ c ∈ (fixed places x).toList, Numeral.IsMark c := by
  obtain ⟨negative, mantissa, exponent, hvalue⟩ := Binary64.exists_ofFloat_of_isFinite hx
  rw [fixed, hvalue]
  exact isMark_of_mem_fixedValue negative

theorem length_fixed_le (places : Nat) : (fixed places x).toList.length ≤ places + 1026 := by
  obtain ⟨negative, mantissa, exponent, hvalue⟩ := Binary64.exists_ofFloat_of_isFinite hx
  obtain ⟨hmantissa, hexponent⟩ := Binary64.ofFloat_bounds hvalue
  have hlength := length_fixedValue_le places negative hmantissa hexponent
  have hgreatest : Binary64.greatestExponent = 971 := rfl
  rw [fixed, hvalue]
  omega

end Finite

end Layout

end Bourse
