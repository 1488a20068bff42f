import Bourse.Json.Printer
import Bourse.Proofs.Json.Grammar
import Bourse.Proofs.Number.DecimalPlaces
import Bourse.Proofs.Number.Places
import Bourse.Proofs.Number.ShortestDecimal

/-! Numbers in JSON texts. Integers are written with their digits and no zero in front. However a
shortest decimal is laid out, the text is a number of the grammar that denotes the value. -/
namespace Bourse.Json

open Numeral

/-! Digits -/

theorem natural_append (digits more : List Char) :
    natural (digits ++ more) = Nat.ofDigitChars 10 more (natural digits) :=
  Nat.ofDigitChars_append 0

theorem natural_digitsOf (n : ℕ) : natural (Layout.digitsOf n) = n := Nat.ofDigitChars_ten_toDigits

theorem natural_append_zeros (digits : List Char) (k : ℕ) :
    natural (digits ++ List.replicate k '0') = natural digits * 10 ^ k := by
  rw [natural_append, Nat.ofDigitChars_replicate_zero, Nat.mul_comm]

theorem natural_zeros_append (k : ℕ) (digits : List Char) :
    natural (List.replicate k '0' ++ digits) = natural digits := by
  rw [natural_append]
  have hzeros := natural_append_zeros [] k
  rw [List.nil_append] at hzeros
  rw [hzeros, natural, Nat.ofDigitChars_nil, Nat.zero_mul, natural]

theorem isDigits_digitsOf (n : ℕ) : IsDigits (Layout.digitsOf n) :=
  ⟨digitsOf_ne_nil n, isDigit_of_mem_digitsOf⟩

theorem isDigits_padZeros (width n : ℕ) : IsDigits (Layout.padZeros width (Layout.digitsOf n)) :=
  ⟨List.append_ne_nil_of_right_ne_nil _ (digitsOf_ne_nil n),
    isDigit_of_mem_padZeros isDigit_of_mem_digitsOf⟩

theorem natural_padZeros (width n : ℕ) :
    natural (Layout.padZeros width (Layout.digitsOf n)) = n := by
  rw [Layout.padZeros, natural_zeros_append, natural_digitsOf]

/-- Only zero is written with a zero in front. -/
theorem eq_zero_of_head?_digitsOf {n : ℕ} (h : (Layout.digitsOf n).head? = some '0') : n = 0 := by
  have hdigit : ∀ d < 10, Nat.digitChar d = '0' → d = 0 := by decide
  induction n using Nat.strong_induction_on with
  | _ n ih =>
    rcases Nat.lt_or_ge n 10 with hsmall | hlarge
    · rw [Layout.digitsOf, Nat.toDigits_of_lt_base hsmall] at h
      exact hdigit n hsmall (Option.some.inj h)
    · -- the digit in front is that of the tenth part
      rw [Layout.digitsOf, Nat.toDigits_of_base_le (by decide) hlarge,
        List.head?_append_of_ne_nil _ Nat.toDigits_ne_nil] at h
      have htenth := ih (n / 10) (by omega) h
      omega

theorem isWhole_digitsOf (n : ℕ) : IsWhole (Layout.digitsOf n) := by
  refine ⟨isDigits_digitsOf n, ?_⟩
  intro hhead
  rw [eq_zero_of_head?_digitsOf hhead]
  rfl

theorem isWhole_singleton {d : Char} (h : d.isDigit = true) : IsWhole [d] := by
  refine ⟨⟨List.cons_ne_nil _ _, List.forall_mem_singleton.mpr h⟩, ?_⟩
  intro hhead
  rw [Option.some.inj hhead]

/-! Integers -/

theorem isNumber_integer (n : ℤ) : IsNumber (Layout.integer n).toList (.int n) := by
  rw [Layout.toList_integer]
  have hnumber := IsNumber.int (decide (n < 0)) (isWhole_digitsOf n.natAbs)
  rw [natural_digitsOf] at hnumber
  have hvalue : (if decide (n < 0) = true then -(n.natAbs : ℤ) else n.natAbs) = n := by
    by_cases hsign : n < 0
    · rw [if_pos (decide_eq_true hsign)]
      omega
    · rw [if_neg (by simpa using hsign)]
      omega
  rw [hvalue] at hnumber
  exact hnumber

/-! Decimals -/

variable {negative : Bool} {place : ℤ} {text : List Char}

/-- Whether a text is a number with a fraction or an exponent and has a certain value. -/
def ShowsDecimal (negative : Bool) (text : List Char) (q : ℚ) : Prop :=
  ∃ (coefficient : ℕ) (place : ℤ),
    IsNumber (sign negative ++ text) (.real (Binary64.nearestDecimal negative coefficient place)) ∧
      coefficient * 10 ^ place = q

theorem isExponent_scientific (width : ℕ) (exponent : ℤ) :
    IsExponent ('e' :: (if exponent < 0 then '-' else '+') ::
      Layout.padZeros width (Layout.digitsOf exponent.natAbs)) exponent := by
  have hdigits := isDigits_padZeros width exponent.natAbs
  have hvalue := natural_padZeros width exponent.natAbs
  split_ifs with hsign
  · have hscale := IsExponent.minus (.inl rfl) hdigits
    have hexponent : -(exponent.natAbs : ℤ) = exponent := by omega
    rwa [hvalue, hexponent] at hscale
  · have hscale := IsExponent.plus (.inl rfl) hdigits
    have hexponent : (exponent.natAbs : ℤ) = exponent := by omega
    rwa [hvalue, hexponent] at hscale

theorem showsDecimal_scientific (layout : Layout) (negative : Bool) (c : ℕ) (place : ℤ) :
    ShowsDecimal negative
      (layout.scientific (Layout.digitsOf c) (place + (Layout.digitsOf c).length - 1))
      (c * 10 ^ place) := by
  refine ⟨c, place, ?_, rfl⟩
  have hnatural := natural_digitsOf c
  obtain ⟨hne, hdigits⟩ := isDigits_digitsOf c
  obtain ⟨d, rest, hrest⟩ := List.exists_cons_of_ne_nil hne
  rw [hrest] at hnatural hdigits ⊢
  obtain ⟨hd, hmore⟩ := List.forall_mem_cons.mp hdigits
  have hscale := isExponent_scientific layout.exponentWidth (place + (d :: rest).length - 1)
  have hmark : ∀ fraction : List Char,
      fraction ++ 'e' :: (if place + (d :: rest).length - 1 < 0 then '-' else '+') ::
        Layout.padZeros layout.exponentWidth
          (Layout.digitsOf (place + (d :: rest).length - 1).natAbs) ≠ [] :=
    fun fraction => List.append_ne_nil_of_right_ne_nil _ (List.cons_ne_nil _ _)
  -- the point is left out if there is one digit only
  cases rest with
  | nil =>
    have hnumber := IsNumber.real negative (isWhole_singleton hd) .absent hscale (hmark [])
    have hplace : place + ([d] : List Char).length - 1 - ([] : List Char).length = place := by
      simp
    rw [hplace, List.append_nil, hnatural] at hnumber
    exact hnumber
  | cons r more =>
    have hnumber := IsNumber.real negative (isWhole_singleton hd)
      (.point ⟨List.cons_ne_nil r more, hmore⟩) hscale (hmark _)
    have hplace : place + (d :: r :: more).length - 1 - (r :: more).length = place := by
      simp only [List.length_cons]
      push_cast
      ring
    have hvalue : natural ([d] ++ r :: more) = c := hnatural
    rw [hplace, hvalue] at hnumber
    exact hnumber

theorem isDigits_append {digits more : List Char} (h : IsDigits digits)
    (hmore : ∀ c ∈ more, c.isDigit = true) : IsDigits (digits ++ more) :=
  ⟨List.append_ne_nil_of_left_ne_nil h.1 _, List.forall_mem_append.mpr ⟨h.2, hmore⟩⟩

theorem isDigit_of_mem_zeros {k : ℕ} : ∀ d ∈ List.replicate k '0', d.isDigit = true := by
  intro d hd
  rw [List.eq_of_mem_replicate hd]
  rfl

/-- All digits behind the point, after zeros. -/
theorem showsDecimal_behind (negative : Bool) (zeros c : ℕ) :
    ShowsDecimal negative ('0' :: '.' :: (List.replicate zeros '0' ++ Layout.digitsOf c))
      (c * 10 ^ (-(zeros + (Layout.digitsOf c).length) : ℤ)) := by
  refine ⟨c, _, ?_, rfl⟩
  have hfraction : IsDigits (List.replicate zeros '0' ++ Layout.digitsOf c) :=
    ⟨List.append_ne_nil_of_right_ne_nil _ (digitsOf_ne_nil c),
      List.forall_mem_append.mpr ⟨isDigit_of_mem_zeros, isDigit_of_mem_digitsOf⟩⟩
  have hnumber := IsNumber.real negative (isWhole_singleton (rfl : '0'.isDigit = true))
    (.point hfraction) .absent (by simp)
  have hvalue : natural (['0'] ++ (List.replicate zeros '0' ++ Layout.digitsOf c)) = c := by
    have hall := natural_zeros_append (zeros + 1) (Layout.digitsOf c)
    rwa [List.replicate_succ, natural_digitsOf] at hall
  have hplace : (0 : ℤ) - (List.replicate zeros '0' ++ Layout.digitsOf c).length =
      -(zeros + (Layout.digitsOf c).length) := by
    rw [List.length_append, List.length_replicate]
    push_cast
    ring
  rw [hvalue, hplace, List.append_nil] at hnumber
  exact hnumber

/-- The point between the digits. -/
theorem showsDecimal_between (negative : Bool) {whole c : ℕ} (hwhole : whole ≠ 0)
    (hinside : whole < (Layout.digitsOf c).length) (hc : c ≠ 0) :
    ShowsDecimal negative
      ((Layout.digitsOf c).take whole ++ '.' :: (Layout.digitsOf c).drop whole)
      (c * 10 ^ (whole - (Layout.digitsOf c).length : ℤ)) := by
  refine ⟨c, _, ?_, rfl⟩
  obtain ⟨-, hdigits⟩ := isDigits_digitsOf c
  have hdrop : (Layout.digitsOf c).drop whole ≠ [] := by
    rw [← List.length_pos_iff, List.length_drop]
    omega
  have htake : IsWhole ((Layout.digitsOf c).take whole) := by
    refine ⟨⟨?_, fun d hd => hdigits d (List.mem_of_mem_take hd)⟩, ?_⟩
    · rw [← List.length_pos_iff, List.length_take]
      omega
    · intro hhead
      rw [List.head?_take, if_neg hwhole] at hhead
      exact absurd (eq_zero_of_head?_digitsOf hhead) hc
  have hnumber := IsNumber.real negative htake
    (.point ⟨hdrop, fun d hd => hdigits d (List.mem_of_mem_drop hd)⟩) .absent (by simp)
  have hplace : (0 : ℤ) - ((Layout.digitsOf c).drop whole).length =
      whole - (Layout.digitsOf c).length := by
    rw [List.length_drop]
    omega
  rw [List.take_append_drop, natural_digitsOf, hplace, List.append_nil] at hnumber
  exact hnumber

/-- The point behind the digits, with zeros in the gap. -/
theorem showsDecimal_beyond (negative : Bool) {zeros c : ℕ} (h : c ≠ 0 ∨ zeros = 0) :
    ShowsDecimal negative
      (Layout.digitsOf c ++ List.replicate zeros '0' ++ ['.', '0']) (c * 10 ^ (zeros : ℤ)) := by
  refine ⟨c * 10 ^ (zeros + 1), -1, ?_, ?_⟩
  · have hfront : IsWhole (Layout.digitsOf c ++ List.replicate zeros '0') := by
      refine ⟨isDigits_append (isDigits_digitsOf c) isDigit_of_mem_zeros, ?_⟩
      intro hhead
      rw [List.head?_append_of_ne_nil _ (digitsOf_ne_nil c)] at hhead
      have hzero := eq_zero_of_head?_digitsOf hhead
      rw [hzero, h.resolve_left (not_not.mpr hzero)]
      rfl
    have hnumber := IsNumber.real negative hfront
      (.point ⟨List.cons_ne_nil '0' [], List.forall_mem_singleton.mpr rfl⟩) .absent (by simp)
    have hvalue : natural (Layout.digitsOf c ++ List.replicate zeros '0' ++ ['0']) =
        c * 10 ^ (zeros + 1) := by
      have hall := natural_append_zeros (Layout.digitsOf c) (zeros + 1)
      rwa [List.replicate_succ', ← List.append_assoc, natural_digitsOf] at hall
    have hplace : (0 : ℤ) - (['0'] : List Char).length = -1 := rfl
    rw [hvalue, hplace, List.append_nil] at hnumber
    exact hnumber
  · push_cast
    rw [zpow_neg, zpow_one, zpow_natCast, pow_succ]
    field_simp

theorem showsDecimal_positional (negative : Bool) {c : ℕ} (h : c ≠ 0 ∨ place = 0) :
    ShowsDecimal negative
      (Layout.positional (Layout.digitsOf c) (place + (Layout.digitsOf c).length))
      (c * 10 ^ place) := by
  have hlength := List.length_pos_iff.mpr (digitsOf_ne_nil c)
  unfold Layout.positional
  split_ifs with hsmall
  · obtain ⟨zeros, hzeros⟩ := Int.eq_ofNat_of_zero_le (Int.neg_nonneg.mpr hsmall)
    have hplace : place = -(zeros + (Layout.digitsOf c).length) := by omega
    rw [hzeros, Int.toNat_natCast, hplace]
    exact showsDecimal_behind negative zeros c
  · obtain ⟨whole, hwhole⟩ := Int.eq_ofNat_of_zero_le (not_le.mp hsmall).le
    dsimp only
    rw [hwhole, Int.toNat_natCast]
    rcases Nat.lt_or_ge whole (Layout.digitsOf c).length with hinside | houtside
    · have hplace : place = whole - (Layout.digitsOf c).length := by omega
      have hdrop : ((Layout.digitsOf c).drop whole).isEmpty = false := by
        rw [List.isEmpty_eq_false_iff, ← List.length_pos_iff, List.length_drop]
        omega
      rw [Nat.sub_eq_zero_of_le hinside.le, List.replicate_zero, List.append_nil, hdrop, hplace]
      exact showsDecimal_between negative (by omega) hinside (h.resolve_right (by omega))
    · obtain ⟨zeros, rfl⟩ := Nat.exists_eq_add_of_le houtside
      have hplace : place = zeros := by omega
      rw [List.take_of_length_le (Nat.le_add_right _ _),
        List.drop_of_length_le (Nat.le_add_right _ _), Nat.add_sub_cancel_left, hplace]
      exact showsDecimal_beyond negative (h.imp_right (by omega))

/-- The text of a decimal shows the decimal, in every layout. -/
theorem showsDecimal_decimal (layout : Layout) {x : Decimal}
    (h : x.coefficient ≠ 0 ∨ x.exponent = 0) :
    ∃ text, (layout.decimal x).toList = sign x.negative ++ text ∧
      ShowsDecimal x.negative text (x.coefficient * 10 ^ x.exponent) := by
  have hsign (text : List Char) :
      (if x.negative then '-' :: text else text) = sign x.negative ++ text := by
    cases x.negative <;> rfl
  unfold Layout.decimal
  dsimp only
  rw [String.toList_ofList, hsign, sub_add_cancel]
  split_ifs
  · exact ⟨_, rfl, showsDecimal_positional x.negative h⟩
  · exact ⟨_, rfl, showsDecimal_scientific layout x.negative x.coefficient x.exponent⟩

/-- The text of a finite number denotes the number. -/
theorem isNumber_number {x : Float} (h : Binary64.IsFinite x) : IsNumber (number x).toList (.real x) := by
  obtain ⟨negative, mantissa, exponent, hx⟩ := h
  obtain ⟨hlegal, -⟩ := Binary64.eq_floatOfCode hx
  have hdecimal : (Shortest.ofFinite negative mantissa exponent).coefficient ≠ 0 ∨
      (Shortest.ofFinite negative mantissa exponent).exponent = 0 := by
    rcases eq_or_ne mantissa 0 with rfl | hmantissa
    · exact .inr rfl
    · -- zero is not around any other value
      left
      intro hzero
      have haround := Shortest.isAround_ofFinite hlegal negative
      obtain ⟨hlow, -⟩ := haround.bounds hlegal hmantissa
      rw [hzero, Nat.cast_zero, zero_mul] at hlow
      exact absurd hlow (not_le.mpr (by positivity))
  obtain ⟨text, htext, c, place, hnumber, hvalue⟩ := showsDecimal_decimal Layout.json hdecimal
  rw [Shortest.ofFinite_negative] at htext hnumber
  rw [Shortest.nearestDecimal_of_eq hx hvalue, ← htext] at hnumber
  rw [number, hx]
  exact hnumber

end Bourse.Json
