import Bourse.Calendar.Moment
import Bourse.Proofs.Number.Literal

/-! Running values and their codes. A value with a code up to that of infinity has the bits of this
code, so taken apart it is the value that the code stands for. -/
namespace Bourse.Binary64

open Float.Model Float.Model.UnpackedFloat

theorem toBits_floatOfCode (negative : Bool) {code : Nat} (hcode : code ≤ infinityCode) :
    (floatOfCode negative code).toBits.toNat = (if negative then signBit else 0) + code := by
  have hpacked : (floatOfCode negative code).toBits = UInt64.ofBitVec (UnpackedFloat.pack .binary64
      (UnpackedFloat.unpack .binary64
        (UInt64.ofNat ((if negative then signBit else 0) + code)).toBitVec)) := rfl
  have hnumber := not_isNaNBits_of_code negative hcode
  have hsize : (if negative then signBit else 0) + code < UInt64.size := by
    have hinfinity : infinityCode = 2047 * 4503599627370496 := rfl
    have hsign : signBit = 9223372036854775808 := rfl
    change _ < 18446744073709551616
    split_ifs <;> omega
  rw [hpacked, UnpackedFloat.pack_unpack, isNaNBits, decide_eq_false hnumber,
    if_neg Bool.false_ne_true, UInt64.ofBitVec_toBitVec, UInt64.toNat_ofNat_of_lt' hsize]

theorem ofFloat_floatOfCode (negative : Bool) {code : Nat} (hcode : code ≤ infinityCode) :
    ofFloat (floatOfCode negative code) = ofCode negative code := by
  have hinfinity : infinityCode = 2047 * 4503599627370496 := rfl
  have hsign : signBit = 9223372036854775808 := rfl
  have hlow : code < signBit := by omega
  rw [ofFloat, toBits_floatOfCode negative hcode]
  cases negative with
  | false =>
    have hpositive : decide (signBit ≤ 0 + code) = false := decide_eq_false (by omega)
    rw [if_neg Bool.false_ne_true, hpositive, Nat.zero_add, Nat.mod_eq_of_lt hlow]
  | true =>
    have hnegative : decide (signBit ≤ signBit + code) = true := decide_eq_true (Nat.le_add_right _ _)
    rw [if_pos rfl, hnegative, Nat.add_mod_left, Nat.mod_eq_of_lt hlow]

/-- The mantissa of a finite value has 53 bits, and its exponent has an upper bound. -/
theorem ofCode_bounds {negative sign : Bool} {code mantissa : Nat} {exponent : Int}
    (h : ofCode negative code = .finite sign mantissa exponent) :
    mantissa < 2 ^ 53 ∧ exponent ≤ 971 := by
  have hbinade : binade = 4503599627370496 := rfl
  have hinfinity : infinityCode = 2047 * binade := rfl
  have hleast : leastExponent = -1074 := rfl
  unfold ofCode at h
  split_ifs at h with hlarge hequal hsmall
  · cases h
    omega
  · cases h
    have hmod : code % binade < binade := Nat.mod_lt _ (by omega)
    have hdiv : code / binade < 2047 := (Nat.div_lt_iff_lt_mul (by omega)).mpr (by omega)
    omega

theorem ofFloat_bounds {x : Float} {negative : Bool} {mantissa : Nat} {exponent : Int}
    (h : ofFloat x = .finite negative mantissa exponent) : mantissa < 2 ^ 53 ∧ exponent ≤ 971 :=
  ofCode_bounds h

theorem div_scaleTwo_lt {mantissa a b : Nat} {exponent : Int} (hmantissa : mantissa < 2 ^ a)
    (hexponent : exponent ≤ b) :
    (scaleTwo mantissa 1 exponent).1 / (scaleTwo mantissa 1 exponent).2 < 2 ^ a * 2 ^ b := by
  unfold scaleTwo
  split_ifs
  · have hpow : 2 ^ exponent.toNat ≤ 2 ^ b := Nat.pow_le_pow_right Nat.two_pos (by omega)
    rw [Nat.div_one]
    exact Nat.mul_lt_mul_of_lt_of_le hmantissa hpow (Nat.two_pow_pos _)
  · calc mantissa / (1 * 2 ^ (-exponent).toNat) ≤ mantissa := Nat.div_le_self _ _
      _ < 2 ^ a := hmantissa
      _ ≤ 2 ^ a * 2 ^ b := Nat.le_mul_of_pos_right _ (Nat.two_pow_pos _)

/-- The greatest exponent of a finite value. -/
def greatestExponent : Nat := 971

/-- The whole part of a value lies below the largest mantissa times the largest power of two. -/
theorem natAbs_wholePart_lt (x : Float) :
    (Moment.wholePart (ofFloat x)).natAbs < 2 ^ 53 * 2 ^ greatestExponent := by
  have hpositive : 0 < 2 ^ 53 * 2 ^ greatestExponent :=
    Nat.mul_pos (Nat.two_pow_pos _) (Nat.two_pow_pos _)
  cases hvalue : ofFloat x with
  | nan => exact hpositive
  | infinity negative => exact hpositive
  | finite negative mantissa exponent =>
    obtain ⟨hmantissa, hexponent⟩ := ofFloat_bounds hvalue
    have hquotient := div_scaleTwo_lt (b := greatestExponent) hmantissa hexponent
    simp only [Moment.wholePart]
    split_ifs
    · rwa [Int.natAbs_neg, Int.natAbs_natCast]
    · rwa [Int.natAbs_natCast]

theorem ofFloat_infiniteFloat (negative : Bool) :
    ofFloat (infiniteFloat negative) = .infinity negative := by
  rw [infiniteFloat, ofFloat_floatOfCode negative (Nat.le_refl _), ofCode, if_neg (Nat.lt_irrefl _),
    if_pos rfl]

/-! Values that are no numbers -/

theorem ofCode_eq_nan_iff (negative : Bool) {code : Nat} :
    ofCode negative code = .nan ↔ infinityCode < code := by
  unfold ofCode
  split_ifs with hnan
  · exact iff_of_true rfl hnan
  all_goals exact iff_of_false nofun hnan

theorem isNaN_iff_bits {x : Float} : x.isNaN = true ↔
    @unpackExponent .binary64 x.toBits.toBitVec = -1#11 ∧
      @unpackMantissa .binary64 x.toBits.toBitVec ≠ 0#52 := by
  have hunpacked : x.isNaN = (UnpackedFloat.unpack .binary64 x.toBits.toBitVec).isNaN := rfl
  rw [hunpacked, UnpackedFloat.isNaN_iff, ← signOf?_eq_none, signOf?_unpack]
  split_ifs with hnan
  · exact iff_of_true rfl hnan
  · exact iff_of_false nofun hnan

/-- A value is taken apart to no number exactly if it is none. -/
theorem ofFloat_eq_nan_iff {x : Float} : ofFloat x = .nan ↔ x.isNaN = true := by
  have hsign : signBit = 9223372036854775808 := rfl
  have hinfinity : infinityCode = 2047 * 4503599627370496 := rfl
  have hexponent : (@unpackExponent .binary64 x.toBits.toBitVec).toNat =
      x.toBits.toNat / 4503599627370496 % 2048 := by
    change (x.toBits.toBitVec.extractLsb' 52 11).toNat = _
    rw [BitVec.extractLsb'_toNat, Nat.shiftRight_eq_div_pow, UInt64.toNat_toBitVec]
  have hmantissa : (@unpackMantissa .binary64 x.toBits.toBitVec).toNat =
      x.toBits.toNat % 4503599627370496 := by
    change (x.toBits.toBitVec.extractLsb' 0 52).toNat = _
    rw [BitVec.extractLsb'_toNat, Nat.shiftRight_eq_div_pow, UInt64.toNat_toBitVec]
    rw [Nat.pow_zero, Nat.div_one]
  rw [isNaN_iff_bits, ofFloat, ofCode_eq_nan_iff, ne_eq, ← BitVec.toNat_inj, ← BitVec.toNat_inj,
    hexponent, hmantissa]
  change _ ↔ _ = 2047 ∧ ¬_ = 0
  rw [hsign, hinfinity]
  omega
/-! Finite values -/

theorem ofCode_of_lt (negative : Bool) {code : Nat} (h : code < infinityCode) :
    ∃ mantissa exponent, ofCode negative code = .finite negative mantissa exponent := by
  unfold ofCode
  rw [if_neg (Nat.lt_asymm h), if_neg h.ne]
  split_ifs
  · exact ⟨_, _, rfl⟩
  · exact ⟨_, _, rfl⟩

/-- A code from that of infinity on has the greatest exponent, which no finite value has. -/
theorem code_lt_of_isFinite {x : Float} (h : x.isFinite = true) :
    x.toBits.toNat % signBit < infinityCode := by
  have hsign : signBit = 9223372036854775808 := rfl
  have hinfinity : infinityCode = 2047 * 4503599627370496 := rfl
  by_contra hlarge
  have hexponent : @unpackExponent .binary64 x.toBits.toBitVec = -1#11 := by
    apply BitVec.eq_of_toNat_eq
    change (x.toBits.toBitVec.extractLsb' 52 11).toNat = 2047
    rw [BitVec.extractLsb'_toNat, Nat.shiftRight_eq_div_pow, UInt64.toNat_toBitVec]
    change x.toBits.toNat / 4503599627370496 % 2048 = 2047
    rw [hsign, hinfinity] at hlarge
    omega
  have hunpacked : x.isFinite = (UnpackedFloat.unpack .binary64 x.toBits.toBitVec).isFinite := rfl
  rw [hunpacked, UnpackedFloat.unpack] at h
  dsimp only at h
  rw [if_pos hexponent] at h
  split_ifs at h
  all_goals contradiction

/-- A code below that of infinity has another exponent than the greatest one. -/
theorem isFinite_of_code_lt {x : Float} (h : x.toBits.toNat % signBit < infinityCode) :
    x.isFinite = true := by
  have hsign : signBit = 9223372036854775808 := rfl
  have hinfinity : infinityCode = 2047 * 4503599627370496 := rfl
  have hexponent : @unpackExponent .binary64 x.toBits.toBitVec ≠ -1#11 := by
    intro heq
    have hbits : (x.toBits.toBitVec.extractLsb' 52 11).toNat = 2047 := congrArg BitVec.toNat heq
    rw [BitVec.extractLsb'_toNat, Nat.shiftRight_eq_div_pow, UInt64.toNat_toBitVec] at hbits
    change x.toBits.toNat / 4503599627370496 % 2048 = 2047 at hbits
    rw [hsign, hinfinity] at h
    omega
  have hunpacked : x.isFinite = (UnpackedFloat.unpack .binary64 x.toBits.toBitVec).isFinite := rfl
  rw [hunpacked, UnpackedFloat.unpack]
  dsimp only
  rw [if_neg hexponent]
  split_ifs <;> rfl

/-- An integer that is not too large for a running value is read as a finite one. -/
theorem isFinite_of_ofInt? {n : Int} {x : Float} (h : ofInt? n = some x) : x.isFinite = true := by
  unfold ofInt? at h
  split_ifs at h with hlarge
  cases h
  have hcode := nearestCode_le n.natAbs 1
  have hsign : signBit = 9223372036854775808 := rfl
  have hinfinity : infinityCode = 2047 * 4503599627370496 := rfl
  apply isFinite_of_code_lt
  rw [ofInt, nearest, toBits_floatOfCode _ hcode, hsign]
  split_ifs <;> omega

theorem exists_ofFloat_of_isFinite {x : Float} (h : x.isFinite = true) :
    ∃ negative mantissa exponent, ofFloat x = .finite negative mantissa exponent :=
  ⟨_, ofCode_of_lt _ (code_lt_of_isFinite h)⟩

theorem isNaN_of_isFinite {x : Float} (h : x.isFinite = true) : x.isNaN = false := by
  rw [Bool.eq_false_iff]
  intro hnan
  have hunpacked : x.isFinite = (unpacked x).isFinite := rfl
  rw [hunpacked, isNaN_iff.mp hnan] at h
  contradiction

/-- The difference of a finite value and a number is a number. -/
theorem isNaN_sub_of_isFinite {a b : Float} (ha : a.isFinite = true) (hb : b.isNaN = false) :
    (a - b).isNaN = false := by
  rw [Bool.eq_false_iff]
  intro hnan
  rcases isNaN_sub hnan with hleft | hright | ⟨sign, hinfinite, -⟩
  · rw [isNaN_of_isFinite ha] at hleft
    contradiction
  · rw [hb] at hright
    contradiction
  · have hunpacked : a.isFinite = (unpacked a).isFinite := rfl
    rw [hunpacked, hinfinite] at ha
    contradiction

end Bourse.Binary64
