import Bourse.Number.Numeral
import Bourse.Proofs.Number.NotANumber
import Bourse.Proofs.Text.Words

/-! Numbers read from text. The binary64 value nearest to a decimal is a number, if perhaps an
infinite one, so a text denotes no number only where it says so in letters. -/
namespace Bourse.Binary64

open Float.Model Float.Model.UnpackedFloat

/-- The code of a value and its sign bit tell the exponent and the mantissa. -/
theorem unpack_of_code (negative : Bool) {code n : Nat} (hcode : code ≤ infinityCode)
    (hn : n = (if negative then signBit else 0) + code) :
    (@unpackExponent .binary64 (UInt64.ofNat n).toBitVec).toNat = code / binade ∧
      (@unpackMantissa .binary64 (UInt64.ofNat n).toBitVec).toNat = code % binade := by
  have hbinade : binade = 4503599627370496 := rfl
  have hsign : signBit = 9223372036854775808 := rfl
  have hinfinity : infinityCode = 2047 * 4503599627370496 := rfl
  have hsize : n < UInt64.size := by
    change n < 18446744073709551616
    split at hn <;> omega
  have hbits : (UInt64.ofNat n).toBitVec.toNat = n := by
    rw [UInt64.toNat_toBitVec, UInt64.toNat_ofNat_of_lt' hsize]
  constructor
  · change ((UInt64.ofNat n).toBitVec.extractLsb' 52 11).toNat = _
    rw [BitVec.extractLsb'_toNat, hbits, Nat.shiftRight_eq_div_pow, hbinade]
    split at hn <;> omega
  · change ((UInt64.ofNat n).toBitVec.extractLsb' 0 52).toNat = _
    rw [BitVec.extractLsb'_toNat, hbits, Nat.shiftRight_eq_div_pow, hbinade]
    split at hn <;> omega

/-- With the greatest exponent there is one code only, and its mantissa is zero. -/
theorem not_isNaNBits_of_code (negative : Bool) {code : Nat} (hcode : code ≤ infinityCode) :
    ¬(@unpackExponent .binary64
          (UInt64.ofNat ((if negative then signBit else 0) + code)).toBitVec = -1#11 ∧
      @unpackMantissa .binary64
          (UInt64.ofNat ((if negative then signBit else 0) + code)).toBitVec ≠ 0#52) := by
  obtain ⟨hexponent, hmantissa⟩ := unpack_of_code negative hcode rfl
  rintro ⟨hgreatest, hfraction⟩
  apply hfraction
  apply BitVec.eq_of_toNat_eq
  rw [hgreatest] at hexponent
  have hquotient : 2047 = code / binade := hexponent
  have hcode : code ≤ 2047 * binade := hcode
  have hexact : code = 2047 * binade := by
    have hle := Nat.div_mul_le_self code binade
    rw [← hquotient] at hle
    exact Nat.le_antisymm hcode hle
  rw [hmantissa, hexact]
  exact Nat.mul_mod_left 2047 binade

/-- Codes up to that of infinity belong to numbers. -/
theorem isNaN_floatOfCode (negative : Bool) {code : Nat} (hcode : code ≤ infinityCode) :
    (floatOfCode negative code).isNaN = false := by
  have hunpacked : unpacked (floatOfCode negative code) = packed (UnpackedFloat.unpack .binary64
      (UInt64.ofNat ((if negative then signBit else 0) + code)).toBitVec) := rfl
  rw [Bool.eq_false_iff, ne_eq, isNaN_iff, hunpacked, packed_eq_notANumber, ← signOf?_eq_none,
    signOf?_unpack, if_neg (not_isNaNBits_of_code negative hcode)]
  exact nofun

theorem isNaN_nearestDecimal (negative : Bool) (coefficient : Nat) (exponent : Int) :
    (nearestDecimal negative coefficient exponent).isNaN = false := by
  unfold nearestDecimal
  dsimp only
  split_ifs
  · exact isNaN_floatOfCode negative (Nat.zero_le _)
  · exact isNaN_floatOfCode negative (Nat.le_refl _)
  · exact isNaN_floatOfCode negative (nearestCode_le _ _)

end Bourse.Binary64

namespace Bourse.Numeral

theorem takeSign_subset (text : List Char) : (takeSign text).2 ⊆ text := by
  unfold takeSign
  split
  · exact List.subset_cons_self _ _
  · exact List.subset_cons_self _ _
  · exact List.Subset.refl _

theorem body_subset (text : List Char) : body text ⊆ text := by
  intro c hc
  have hc := (List.dropWhile_sublist _).subset (List.mem_reverse.mp hc)
  exact (List.dropWhile_sublist _).subset (List.mem_reverse.mp hc)

/-- A word of letters is not found in a text without them. -/
theorem isWord_eq_false {words : List String} {text : List Char}
    (hwords : ∀ word ∈ words, word.toList.any Text.isLetter = true)
    (htext : ∀ c ∈ text, Text.isLetter c = false) : isWord words text = false := by
  have hlower : text.map Char.toLower = text := by
    rw [List.map_congr_left fun c hc => Text.toLower_of_not_isLetter (htext c hc), List.map_id']
  rw [isWord, hlower, Bool.eq_false_iff]
  intro hmem
  have hany := hwords _ (List.contains_iff_mem.mp hmem)
  rw [String.toList_ofList] at hany
  obtain ⟨c, hc, hletter⟩ := List.any_eq_true.mp hany
  rw [htext c hc] at hletter
  contradiction

/-- A text without letters denotes a decimal if it denotes a number at all. -/
theorem float?_of_not_isLetter {text : List Char} (htext : ∀ c ∈ text, Text.isLetter c = false) :
    float? text = (decimal? (body text)).map fun x =>
      Binary64.nearestDecimal x.negative x.coefficient x.exponent := by
  have hword : ∀ c ∈ (takeSign (body text)).2, Text.isLetter c = false := fun c hc =>
    htext c (body_subset text (takeSign_subset _ hc))
  have hinfinity : isWord ["inf", "infinity"] (takeSign (body text)).2 = false :=
    isWord_eq_false (by decide +kernel) hword
  have hnan : isWord ["nan"] (takeSign (body text)).2 = false :=
    isWord_eq_false (by decide +kernel) hword
  rw [float?]
  dsimp only
  rw [hinfinity, hnan]
  rfl

/-- What a text without letters denotes is a number. -/
theorem isNaN_of_float? {text : List Char} {x : Float} (h : float? text = some x)
    (htext : ∀ c ∈ text, Text.isLetter c = false) : x.isNaN = false := by
  rw [float?_of_not_isLetter htext] at h
  obtain ⟨d, -, rfl⟩ := Option.map_eq_some_iff.mp h
  exact Binary64.isNaN_nearestDecimal d.negative d.coefficient d.exponent

end Bourse.Numeral
