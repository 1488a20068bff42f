import Bourse.Proofs.Number.Coding
import Bourse.Proofs.Number.Monotone
import Bourse.Proofs.Number.Rank

/-! Which running values lie below zero. A value that is rounded keeps its sign, and it is zero only
if its code is. -/
namespace Bourse.Binary64

open Float.Model Float.Model.UnpackedFloat

theorem unpacked_zero : unpacked 0 = .zero .positive := rfl

theorem lt_zero_iff {x : Float} :
    x < 0 ↔ signOf? (unpacked x) = some .negative ∧ ∀ sign, unpacked x ≠ .zero sign := by
  rw [lt_iff_compare, unpacked_zero]
  cases unpacked x with
  | notANumber => exact iff_of_false nofun nofun
  | zero sign => cases sign <;> simp [UnpackedFloat.compare]
  | infinity sign => cases sign <;> simp [UnpackedFloat.compare, signOf?]
  | finite sign mantissa exponent hm => cases sign <;> simp [UnpackedFloat.compare, signOf?]

variable {code : Nat}

/-- The bits of a value are those that it was made of. -/
theorem unpacked_floatOfCode (negative : Bool) (hcode : code ≤ infinityCode) :
    unpacked (floatOfCode negative code) = UnpackedFloat.unpack .binary64
      (UInt64.ofNat ((if negative then signBit else 0) + code)).toBitVec := by
  have hsign : signBit = 9223372036854775808 := rfl
  have hinfinity : infinityCode = 2047 * 4503599627370496 := rfl
  have hsize : (if negative then signBit else 0) + code < UInt64.size := by
    change _ < 18446744073709551616
    split_ifs <;> omega
  have hbits : (floatOfCode negative code).toBits =
      UInt64.ofNat ((if negative then signBit else 0) + code) := by
    apply UInt64.toNat_inj.mp
    rw [toBits_floatOfCode negative hcode, UInt64.toNat_ofNat_of_lt' hsize]
  rw [← hbits]
  rfl

theorem unpackSign_of_code (negative : Bool) (hcode : code ≤ infinityCode) :
    @unpackSign .binary64 (UInt64.ofNat ((if negative then signBit else 0) + code)).toBitVec =
      if negative then 1#1 else 0#1 := by
  have hsign : signBit = 9223372036854775808 := rfl
  have hinfinity : infinityCode = 2047 * 4503599627370496 := rfl
  have hsize : (if negative then signBit else 0) + code < UInt64.size := by
    change _ < 18446744073709551616
    split_ifs <;> omega
  apply BitVec.eq_of_toNat_eq
  change ((UInt64.ofNat _).toBitVec.extractLsb' 63 1).toNat = _
  rw [BitVec.extractLsb'_toNat, Nat.shiftRight_eq_div_pow, UInt64.toNat_toBitVec,
    UInt64.toNat_ofNat_of_lt' hsize, hsign]
  cases negative with
  | false =>
    change (0 + code) / 9223372036854775808 % 2 = 0
    omega
  | true =>
    change (9223372036854775808 + code) / 9223372036854775808 % 2 = 1
    omega

theorem signOf?_floatOfCode (negative : Bool) (hcode : code ≤ infinityCode) :
    signOf? (unpacked (floatOfCode negative code)) =
      some (if negative then .negative else .positive) := by
  rw [unpacked_floatOfCode negative hcode, signOf?_unpack,
    if_neg (not_isNaNBits_of_code negative hcode), unpackSign_of_code negative hcode]
  cases negative <;> rfl

theorem exponent_and_mantissa_of_zero {b : BitVec 64} {sign : Sign}
    (h : UnpackedFloat.unpack .binary64 b = .zero sign) :
    @unpackExponent .binary64 b = 0#11 ∧ @unpackMantissa .binary64 b = 0#52 := by
  unfold UnpackedFloat.unpack at h
  dsimp only at h
  -- with the greatest exponent it would be infinite or no number, and finite with any other
  split_ifs at h with hgreatest hfraction hleast hnone
  exact ⟨hleast, hnone⟩

theorem unpacked_floatOfCode_ne_zero (negative : Bool) (hpositive : 0 < code)
    (hcode : code ≤ infinityCode) (sign : Sign) :
    unpacked (floatOfCode negative code) ≠ .zero sign := by
  intro hzero
  rw [unpacked_floatOfCode negative hcode] at hzero
  obtain ⟨hleast, hnone⟩ := exponent_and_mantissa_of_zero hzero
  obtain ⟨hexponent, hmantissa⟩ := unpack_of_code negative hcode rfl
  rw [hleast] at hexponent
  rw [hnone] at hmantissa
  -- quotient and remainder of the code are both zero
  have hquotient : code / binade = 0 := hexponent.symm
  have hremainder : code % binade = 0 := hmantissa.symm
  have hsum := Nat.div_add_mod code binade
  rw [hquotient, hremainder, Nat.mul_zero] at hsum
  omega

theorem floatOfCode_lt_zero_iff (negative : Bool) (hcode : code ≤ infinityCode) :
    floatOfCode negative code < 0 ↔ negative = true ∧ 0 < code := by
  rw [lt_zero_iff, signOf?_floatOfCode negative hcode]
  cases negative with
  | false => exact iff_of_false nofun nofun
  | true =>
    constructor
    · intro h
      refine ⟨rfl, ?_⟩
      by_contra hzero
      obtain rfl : code = 0 := by omega
      exact h.2 .negative rfl
    · intro h
      exact ⟨rfl, unpacked_floatOfCode_ne_zero true h.2 hcode⟩

/-- A quotient of at least one millionth is not rounded to zero. -/
theorem nearest_lt_zero_iff (negative : Bool) {num den : Nat} (hden : 0 < den)
    (hmillionth : den ≤ 1000000) : nearest negative num den < 0 ↔ negative = true ∧ 0 < num := by
  rw [nearest, floatOfCode_lt_zero_iff negative (nearestCode_le num den)]
  refine and_congr_right fun _ => ?_
  rcases Nat.eq_zero_or_pos num with rfl | hnum
  · rw [nearestCode, if_pos rfl]
  · refine iff_of_true ?_ hnum
    have hleast : 0 < nearestCode 1 1000000 := by decide +kernel
    apply hleast.trans_le
    apply nearestCode_mono (by decide) hden
    apply (natCast_div_le_div_iff (by decide) hden).mpr
    calc 1 * den ≤ num * 1000000 := Nat.mul_le_mul hnum hmillionth

end Bourse.Binary64
