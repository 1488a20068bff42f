import Bourse.Number.Rounding
/-!
Binary64 values as exact numbers. A finite value is `±mantissa · 2^exponent`, and a quotient of
naturals is read as the nearest value, ties to the even mantissa.
-/
namespace Bourse

/-- A binary64 value taken apart. -/
inductive Binary64 where
  | nan
  | infinity (negative : Bool)
  /-- The value `±mantissa · 2^exponent`; zero keeps its sign. -/
  | finite (negative : Bool) (mantissa : Nat) (exponent : Int)

namespace Binary64

/-- The number of values in one binade, which is also the implicit leading bit. -/
def binade : Nat := Nat.pow 2 52

/-- The exponent of the least unit in the last place. -/
def leastExponent : Int := -1074

/-- Finite values without sign are numbered upwards from zero; this is the number of infinity. -/
def infinityCode : Nat := 2047 * binade

/-- The value with a given number among those without sign. -/
def ofCode (negative : Bool) (code : Nat) : Binary64 :=
  if infinityCode < code then nan
  else if code = infinityCode then infinity negative
  else if code < binade then finite negative code leastExponent
  else finite negative (binade + code % binade) (leastExponent + (code / binade - 1 : Nat))

/-- The weight of the sign bit. -/
def signBit : Nat := Nat.pow 2 63

/-- A running value taken apart. -/
def ofFloat (x : Float) : Binary64 :=
  let bits := x.toBits.toNat
  ofCode (signBit ≤ bits) (bits % signBit)

/-- The exponent of the leading bit of a positive quotient. -/
def leadingBit (num den : Nat) : Int :=
  let guess : Int := num.log2 - den.log2
  let (n, d) := scaleTwo num den (-guess)
  if n < d then guess - 1 else guess

/-- The number of the value nearest to a quotient; past the largest finite value it is infinity. -/
def nearestCode (num den : Nat) : Nat :=
  if num = 0 then 0
  else
    let unit := max (leadingBit num den - 52) leastExponent
    let (n, d) := scaleTwo num den (-unit)
    min infinityCode ((unit - leastExponent).toNat * binade + roundDiv n d)

/-- The running value with a sign and a number. -/
def floatOfCode (negative : Bool) (code : Nat) : Float :=
  Float.ofBits (UInt64.ofNat ((if negative then signBit else 0) + code))

/-- The running value nearest to `±num / den`. -/
def nearest (negative : Bool) (num den : Nat) : Float :=
  floatOfCode negative (nearestCode num den)

/-- The running value nearest to `±coefficient · 10^exponent`. Where the powers of two that enclose
the number lie far outside the range, the answer is zero or infinity at once. -/
def nearestDecimal (negative : Bool) (coefficient : Nat) (exponent : Int) : Float :=
  let scale := (coefficient.log2 : Int) + exponent * 3
  if coefficient = 0 ∨ (exponent < 0 ∧ scale < -1100) then floatOfCode negative 0
  else if 0 ≤ exponent ∧ 1100 < scale then floatOfCode negative infinityCode
  else
    let (n, d) := scaleTen coefficient 1 exponent
    nearest negative n d

/-- The running value nearest to an integer. -/
def ofInt (n : Int) : Float := nearest (n < 0) n.natAbs 1

/-- The running value nearest to an integer, unless that is infinite. -/
def ofInt? (n : Int) : Option Float :=
  if nearestCode n.natAbs 1 = infinityCode then none else some (ofInt n)

/-- The running value that is no number. -/
def nanFloat : Float := Float.ofBits 0x7ff8000000000000

/-- The running infinity of a sign. -/
def infiniteFloat (negative : Bool) : Float := floatOfCode negative infinityCode

end Binary64

/-- A decimal number `±coefficient · 10^exponent`. -/
structure Decimal where
  negative : Bool
  coefficient : Nat
  exponent : Int
deriving DecidableEq, Repr

end Bourse
