import Bourse.Number.Binary64
import Mathlib

/-! How running values come to be no numbers. The sign of a value survives rounding, and what is no
number has no sign; so a difference is no number only if an operand is none or both are the same
infinity, and an infinity is lost for good once part of the way back from it is added to it. -/
namespace Bourse.Binary64

open Float.Model Float.Model.UnpackedFloat

/-- The sign of a value. What is no number has none. -/
def signOf? : UnpackedFloat → Option Sign
  | .notANumber => none
  | .infinity sign => some sign
  | .zero sign => some sign
  | .finite sign _ _ _ => some sign

/-- The value that a running value stands for. -/
def unpacked (x : Float) : UnpackedFloat := x.toModel.unpack

/-- A value in the form that a running value can hold. -/
def packed (u : UnpackedFloat) : UnpackedFloat :=
  UnpackedFloat.unpack .binary64 (UnpackedFloat.pack .binary64 u)

/-- Bits are no number if their exponent is the greatest one and their mantissa is not zero. -/
theorem signOf?_unpack (b : BitVec 64) :
    signOf? (UnpackedFloat.unpack .binary64 b) =
      if @unpackExponent .binary64 b = -1#11 ∧ @unpackMantissa .binary64 b ≠ 0#52 then none
      else some (Sign.ofBitVec (@unpackSign .binary64 b)) := by
  unfold UnpackedFloat.unpack
  dsimp only
  by_cases hexponent : @unpackExponent .binary64 b = -1#11
  · by_cases hmantissa : @unpackMantissa .binary64 b = 0#52
    · rw [if_pos hexponent, if_pos hmantissa, if_neg fun h => h.2 hmantissa, signOf?]
    · rw [if_pos hexponent, if_neg hmantissa, if_pos ⟨hexponent, hmantissa⟩, signOf?]
  · have hnumber : ¬(@unpackExponent .binary64 b = -1#11 ∧ @unpackMantissa .binary64 b ≠ 0#52) :=
      fun h => hexponent h.1
    rw [if_neg hexponent, if_neg hnumber]
    split_ifs <;> rfl

/-- Unpacked components are no number only if the exponent and the mantissa say so. -/
theorem signOf?_unpack_packComponents {sign : Sign} {exponent : BitVec 11} {mantissa : BitVec 52}
    (h : exponent ≠ -1#11 ∨ mantissa = 0#52) :
    signOf? (UnpackedFloat.unpack .binary64 (packComponents .binary64 sign exponent mantissa)) =
      some sign := by
  rw [signOf?_unpack, unpackMantissa_packComponents, unpackExponent_packComponents,
    unpackSign_packComponents, Sign.ofBitVec_toBitVec, if_neg]
  rintro ⟨hexponent, hmantissa⟩
  exact h.elim (· hexponent) hmantissa

theorem packed_infinity (sign : Sign) : packed (.infinity sign) = .infinity sign := by
  cases sign <;> rfl

theorem signOf?_packed (u : UnpackedFloat) : signOf? (packed u) = signOf? u := by
  cases u with
  | notANumber => rfl
  | infinity sign => rw [packed_infinity]
  | zero sign => cases sign <;> rfl
  | finite sign mantissa exponent hm =>
    unfold packed UnpackedFloat.pack
    dsimp only
    split_ifs with hlarge hnormal
    · -- too large for the format, so packed as an infinity
      exact signOf?_unpack_packComponents (.inr rfl)
    · -- a normal number has the greatest exponent only if it is too large
      refine signOf?_unpack_packComponents (.inl fun he => hlarge ?_)
      have hbits := congrArg BitVec.toNat he
      rw [BitVec.toNat_ofNat] at hbits
      have hmax : (-1#11 : BitVec 11).toNat = 2047 := rfl
      omega
    · -- a subnormal number has the least exponent
      exact signOf?_unpack_packComponents (.inl (by decide))

theorem signOf?_eq_none {u : UnpackedFloat} : signOf? u = none ↔ u = .notANumber := by
  cases u with
  | notANumber => exact ⟨fun _ => rfl, fun _ => rfl⟩
  | infinity | zero | finite => exact ⟨nofun, nofun⟩

theorem eq_positive {sign : Sign} (h : some sign ≠ some .negative) : sign = .positive := by
  cases sign with
  | negative => contradiction
  | positive => rfl

theorem packed_eq_notANumber {u : UnpackedFloat} : packed u = .notANumber ↔ u = .notANumber := by
  rw [← signOf?_eq_none, ← signOf?_eq_none, signOf?_packed]

theorem isNaN_iff {x : Float} : x.isNaN = true ↔ unpacked x = .notANumber :=
  UnpackedFloat.isNaN_iff

theorem unpacked_add (a b : Float) :
    unpacked (a + b) = packed (UnpackedFloat.add .binary64 (unpacked a) (unpacked b)) := rfl

theorem unpacked_sub (a b : Float) :
    unpacked (a - b) = packed (UnpackedFloat.sub .binary64 (unpacked a) (unpacked b)) := rfl

theorem unpacked_mul (a b : Float) :
    unpacked (a * b) = packed (UnpackedFloat.mul .binary64 (unpacked a) (unpacked b)) := rfl

theorem unpacked_div (a b : Float) :
    unpacked (a / b) = packed (UnpackedFloat.div .binary64 (unpacked a) (unpacked b)) := rfl

theorem isNaN_nanFloat : nanFloat.isNaN = true := by
  decide +kernel

/-! What is no number absorbs every operation -/

theorem isNaN_add_of_left {a : Float} (h : a.isNaN = true) (b : Float) : (a + b).isNaN = true := by
  rw [isNaN_iff] at h ⊢
  rw [unpacked_add, packed_eq_notANumber, h]
  rfl

theorem isNaN_sub_of_left {a : Float} (h : a.isNaN = true) (b : Float) : (a - b).isNaN = true := by
  rw [isNaN_iff] at h ⊢
  rw [unpacked_sub, packed_eq_notANumber, h]
  rfl

theorem isNaN_sub_of_right (a : Float) {b : Float} (h : b.isNaN = true) : (a - b).isNaN = true := by
  rw [isNaN_iff] at h ⊢
  rw [unpacked_sub, packed_eq_notANumber, h]
  cases unpacked a <;> rfl

theorem isNaN_mul_of_left {a : Float} (h : a.isNaN = true) (b : Float) : (a * b).isNaN = true := by
  rw [isNaN_iff] at h ⊢
  rw [unpacked_mul, packed_eq_notANumber, h]
  rfl

theorem isNaN_abs (x : Float) : x.abs.isNaN = x.isNaN := by
  have hunpacked : unpacked x.abs = packed (UnpackedFloat.abs (unpacked x)) := rfl
  rw [Bool.eq_iff_iff, isNaN_iff, isNaN_iff, hunpacked, packed_eq_notANumber]
  cases unpacked x <;> simp [UnpackedFloat.abs]

/-! A difference that is no number -/

theorem signOf?_roundWithAccuracy (format : Float.Model.Format) (sign : Sign) (mantissa : Nat)
    (exponent : Int) (accuracy : Accuracy) :
    signOf? (roundWithAccuracy format sign mantissa exponent accuracy) = some sign := by
  unfold roundWithAccuracy
  dsimp only
  split_ifs <;> rfl

theorem signOf?_normalize (format : Float.Model.Format) (mantissa exponent : Int) (zero : Sign) :
    signOf? (UnpackedFloat.normalize format mantissa exponent zero) =
      match compare mantissa 0 with
      | .lt => some .negative
      | .eq => some zero
      | .gt => some .positive := by
  unfold UnpackedFloat.normalize
  cases compare mantissa 0 with
  | lt => exact signOf?_roundWithAccuracy ..
  | eq => rfl
  | gt => exact signOf?_roundWithAccuracy ..

theorem sub_eq_notANumber {a b : UnpackedFloat}
    (h : UnpackedFloat.sub .binary64 a b = .notANumber) :
    a = .notANumber ∨ b = .notANumber ∨ ∃ sign, a = .infinity sign ∧ b = .infinity sign := by
  cases a with
  | notANumber => exact .inl rfl
  | infinity s =>
    cases b with
    | notANumber => exact .inr (.inl rfl)
    | infinity t =>
      refine .inr (.inr ⟨s, rfl, ?_⟩)
      cases s <;> cases t <;> first | rfl | contradiction
    | zero t => contradiction
    | finite t m e hm => contradiction
  | zero s =>
    cases b with
    | notANumber => exact .inr (.inl rfl)
    | infinity t => contradiction
    | zero t => cases s <;> cases t <;> contradiction
    | finite t m e hm => contradiction
  | finite s m e hm =>
    cases b with
    | notANumber => exact .inr (.inl rfl)
    | infinity t => contradiction
    | zero t => contradiction
    | finite t m' e' hm' =>
      unfold UnpackedFloat.sub at h
      dsimp only at h
      -- the exact difference is rounded, and rounding leaves a sign
      rw [← signOf?_eq_none, signOf?_normalize] at h
      split at h <;> contradiction

/-- A difference is no number only if an operand is none or both are the same infinity. -/
theorem isNaN_sub {a b : Float} (h : (a - b).isNaN = true) :
    a.isNaN = true ∨ b.isNaN = true ∨
      ∃ sign, unpacked a = .infinity sign ∧ unpacked b = .infinity sign := by
  rw [isNaN_iff, unpacked_sub, packed_eq_notANumber] at h
  rw [isNaN_iff, isNaN_iff]
  exact sub_eq_notANumber h

/-! The way back from infinity -/

/-- Whether a value is no number or the infinity of a sign. -/
def IsLost (sign : Sign) (u : UnpackedFloat) : Prop := u = .notANumber ∨ u = .infinity sign

theorem IsLost.packed {sign : Sign} {u : UnpackedFloat} (h : IsLost sign u) :
    IsLost sign (packed u) := by
  rcases h with rfl | rfl
  · exact .inl rfl
  · exact .inr (packed_infinity sign)

theorem isLost_sub (a : UnpackedFloat) (sign : Sign) :
    IsLost (-sign) (UnpackedFloat.sub .binary64 a (.infinity sign)) := by
  cases a with
  | notANumber => exact .inl rfl
  | infinity s => cases s <;> cases sign <;> first | exact .inl rfl | exact .inr rfl
  | zero s => exact .inr rfl
  | finite s m e hm => exact .inr rfl

theorem IsLost.mul {sign : Sign} {a b : UnpackedFloat} (h : IsLost sign a)
    (hb : signOf? b ≠ some .negative) : IsLost sign (UnpackedFloat.mul .binary64 a b) := by
  rcases h with rfl | rfl
  · exact .inl rfl
  · -- times zero an infinity is no number; a factor that is not negative keeps its sign
    have hsign : sign * .positive = sign := by cases sign <;> rfl
    cases b with
    | notANumber => exact .inl rfl
    | zero s => exact .inl rfl
    | infinity s => exact .inr (by rw [eq_positive hb, UnpackedFloat.mul, hsign])
    | finite s m e hm => exact .inr (by rw [eq_positive hb, UnpackedFloat.mul, hsign])

theorem IsLost.add_infinity {sign : Sign} {a : UnpackedFloat} (h : IsLost (-sign) a) :
    UnpackedFloat.add .binary64 a (.infinity sign) = .notANumber := by
  rcases h with rfl | rfl
  · rfl
  · cases sign <;> rfl

/-- From infinity no part of the way leads anywhere. -/
theorem isNaN_step_of_infinity {a factor : Float} {sign : Sign} (ha : unpacked a = .infinity sign)
    (hfactor : signOf? (unpacked factor) ≠ some .negative) (x : Float) :
    ((x - a) * factor + a).isNaN = true := by
  -- the way back from an infinity is lost to the opposite one, if it is a number at all
  have hway : IsLost (-sign) (unpacked ((x - a) * factor)) := by
    rw [unpacked_mul, unpacked_sub, ha]
    exact ((isLost_sub _ sign).packed.mul hfactor).packed
  rw [isNaN_iff, unpacked_add, ha, packed_eq_notANumber, hway.add_infinity]

/-! Values that are not negative -/

theorem signOf?_normalize_of_nonneg (format : Float.Model.Format) {mantissa : Int}
    (h : 0 ≤ mantissa) (exponent : Int) :
    signOf? (UnpackedFloat.normalize format mantissa exponent .positive) = some .positive := by
  rw [signOf?_normalize]
  cases hsign : compare mantissa 0 with
  | lt => exact absurd (Int.compare_eq_lt.mp hsign) (Int.not_lt.mpr h)
  | eq => rfl
  | gt => rfl

theorem signOf?_add_ne {a b : UnpackedFloat} (ha : signOf? a ≠ some .negative)
    (hb : signOf? b ≠ some .negative) :
    signOf? (UnpackedFloat.add .binary64 a b) ≠ some .negative := by
  cases a with
  | notANumber => exact nofun
  | infinity s =>
    obtain rfl := eq_positive ha
    cases b with
    | infinity t =>
      obtain rfl := eq_positive hb
      exact nofun
    | notANumber | zero | finite => exact nofun
  | zero s =>
    obtain rfl := eq_positive ha
    cases b with
    | notANumber => exact nofun
    | infinity t | zero t | finite t =>
      obtain rfl := eq_positive hb
      exact nofun
  | finite s m e hm =>
    obtain rfl := eq_positive ha
    cases b with
    | notANumber | zero => exact nofun
    | infinity t =>
      obtain rfl := eq_positive hb
      exact nofun
    | finite t m' e' hm' =>
      obtain rfl := eq_positive hb
      unfold UnpackedFloat.add
      dsimp only
      rw [signOf?_normalize_of_nonneg]
      · exact nofun
      · -- both mantissas are shifted to the smaller exponent and stay naturals
        exact Int.add_nonneg (Int.natCast_nonneg _) (Int.natCast_nonneg _)

theorem signOf?_div_ne {a b : UnpackedFloat} (ha : signOf? a ≠ some .negative)
    (hb : signOf? b ≠ some .negative) :
    signOf? (UnpackedFloat.div .binary64 a b) ≠ some .negative := by
  cases a with
  | notANumber => exact nofun
  | infinity s | zero s =>
    obtain rfl := eq_positive ha
    cases b with
    | notANumber => exact nofun
    | infinity t | zero t | finite t =>
      obtain rfl := eq_positive hb
      exact nofun
  | finite s m e hm =>
    obtain rfl := eq_positive ha
    cases b with
    | notANumber => exact nofun
    | infinity t | zero t =>
      obtain rfl := eq_positive hb
      exact nofun
    | finite t m' e' hm' =>
      obtain rfl := eq_positive hb
      unfold UnpackedFloat.div
      dsimp only
      rw [signOf?_roundWithAccuracy]
      exact nofun

theorem signOf?_unpack_ne {b : BitVec 64} (h : b.toNat < signBit) :
    signOf? (UnpackedFloat.unpack .binary64 b) ≠ some .negative := by
  have hbit : @unpackSign .binary64 b = 0#1 := by
    refine BitVec.eq_of_toNat_eq ?_
    change (b.extractLsb' 63 1).toNat = 0
    rw [BitVec.extractLsb'_toNat, Nat.shiftRight_eq_div_pow,
      Nat.div_eq_of_lt (show b.toNat < 2 ^ 63 from h)]
  have hsign : Sign.ofBitVec 0#1 = .positive := rfl
  rw [signOf?_unpack, hbit, hsign]
  split_ifs <;> exact nofun

theorem nearestCode_le (num den : Nat) : nearestCode num den ≤ infinityCode := by
  unfold nearestCode
  split_ifs
  · exact Nat.zero_le _
  · exact Nat.min_le_left _ _

theorem signOf?_ofNat_ne (n : Nat) : signOf? (unpacked (ofInt n)) ≠ some .negative := by
  -- codes up to infinity have no sign bit
  have hcode := nearestCode_le n 1
  have hlarge : infinityCode < signBit := by decide
  have hsize : signBit < UInt64.size := by decide
  have hofInt : unpacked (ofInt n) = packed (UnpackedFloat.unpack .binary64
      (UInt64.ofNat (nearestCode n 1)).toBitVec) := by
    have hsign : decide ((n : Int) < 0) = false := decide_eq_false (by omega)
    rw [ofInt, nearest, floatOfCode, hsign, Int.natAbs_natCast, if_neg Bool.false_ne_true,
      Nat.zero_add]
    rfl
  rw [hofInt, signOf?_packed]
  refine signOf?_unpack_ne ?_
  rw [UInt64.toNat_toBitVec, UInt64.toNat_ofNat_of_lt' (by omega)]
  omega

end Bourse.Binary64
